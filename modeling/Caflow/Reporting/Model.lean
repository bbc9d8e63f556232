import Caflow.Accounting.Journal
import Caflow.Lib.IsoDate
import Caflow.Lib.LargestRemainder

set_option linter.all false

namespace Caflow.Reporting
open Accounting (JournalLine)
open IsoDate LargestRemainder

structure Account where
  id : String
  code : String
  name : String
  type : String
  subtype : Option String
  systemKey : Option String
  scheduleIIIMapping : Option String

def Account.isIncome (a : Account) : Prop := a.type = "Revenue" ∨ a.type = "Income"

def Account.isExpense (a : Account) : Prop := a.type = "Expense"

instance (a : Account) : Decidable a.isIncome := inferInstanceAs (Decidable (_ ∨ _))

instance (a : Account) : Decidable a.isExpense := inferInstanceAs (Decidable (_ = _))

/-- A firm's accounts, held under their ids. -/
structure Chart where
  values : List Account
  keyed : (values.map Account.id).Nodup

def Chart.get (chart : Chart) (id : String) : Option Account :=
  chart.values.find? (fun a => a.id = id)

/-- A text that is there and not blank. -/
def given (text : Option String) : Option String := text.filter (· ≠ "")

structure JournalEntry where
  id : String
  entryDate : Date
  entryType : String
  lines : List JournalLine
  reversalOf : Option String
  referenceNo : Option String
  narration : Option String
  createdAt : Option String
  sourceType : Option String
  sourceId : Option String
  deriving DecidableEq

structure Invoice where
  id : String
  journalEntryId : Option String

/-- What a receipt settles of an invoice. The writers of the table refuse a negative amount. -/
structure ReceiptAllocation where
  receiptId : String
  salesInvoiceId : String
  allocatedPaise : ℕ
  deriving DecidableEq

structure Receipt where
  id : String
  journalEntryId : Option String

structure CreditNote where
  id : String
  salesInvoiceId : Option String
  journalEntryId : Option String

structure Bill where
  id : String
  journalEntryId : Option String

structure Payment where
  id : String
  purchaseBillId : Option String
  journalEntryId : Option String

/-- A line of a report stream. -/
abbrev ProjectedLine := JournalLine

/-- A line with its debit and credit exchanged. -/
def swap (l : ProjectedLine) : ProjectedLine := ⟨l.account, l.creditPaise, l.debitPaise⟩

/-- The posted ledger of a tenant with the documents around it. `reversal_of` is written with the
reversal itself, which posts the lines it read of the original with their sides exchanged. -/
structure LedgerSnapshot where
  accounts : Chart
  entries : List JournalEntry
  entriesInRange : List JournalEntry
  invoices : List Invoice
  receipts : List Receipt
  allocations : List ReceiptAllocation
  creditNotes : List CreditNote
  bills : List Bill
  payments : List Payment
  keyed : (entries.map JournalEntry.id).Nodup
  inRange : ∀ e ∈ entriesInRange, e ∈ entries
  balanced : ∀ e ∈ entries, Accounting.totalDebit e.lines = Accounting.totalCredit e.lines
  postedAs : String → ℕ
  reversalLater : ∀ e ∈ entries, ∀ o ∈ entries, given e.reversalOf = some o.id →
    postedAs o.id < postedAs e.id
  reversalSwaps : ∀ e ∈ entries, ∀ o ∈ entries, given e.reversalOf = some o.id →
    e.lines.Sublist (o.lines.map swap)

namespace LedgerSnapshot

variable (s : LedgerSnapshot)

def entriesById (id : String) : Option JournalEntry := s.entries.find? (fun e => e.id = id)

def invoice (id : String) : Option Invoice := s.invoices.find? (fun i => i.id = id)

def bill (id : String) : Option Bill := s.bills.find? (fun b => b.id = id)

def allocationsByReceipt (receiptId : String) : List ReceiptAllocation :=
  s.allocations.filter fun a => a.receiptId = receiptId

/-- Of two documents that name one entry the later read stays in the map. -/
def byJournal {α : Type} (documents : List α) (journalEntryId : α → Option String) (id : String) :
    Option α :=
  documents.reverse.find? fun d => given (journalEntryId d) = some id

def receiptByJournal : String → Option Receipt := byJournal s.receipts Receipt.journalEntryId

def paymentByJournal : String → Option Payment := byJournal s.payments Payment.journalEntryId

def invoiceByJournal : String → Option Invoice := byJournal s.invoices Invoice.journalEntryId

def billByJournal : String → Option Bill := byJournal s.bills Bill.journalEntryId

def creditnoteByJournal : String → Option CreditNote :=
  byJournal s.creditNotes CreditNote.journalEntryId

theorem entries_by_id (h : e ∈ s.entries) : s.entriesById e.id = some e := by
  refine List.find?_eq_some_iff_append.mpr ⟨by simp, ?_⟩
  obtain ⟨before, after, hsplit⟩ := List.append_of_mem h
  refine ⟨before, after, hsplit, fun x hx => ?_⟩
  have hkeyed := s.keyed
  rw [hsplit, List.map_append, List.map_cons, List.nodup_append] at hkeyed
  simpa using hkeyed.2.2 x.id (List.mem_map_of_mem hx) e.id List.mem_cons_self

theorem entries_by_id_mem {id : String} (h : s.entriesById id = some e) : e ∈ s.entries ∧ e.id = id :=
  ⟨List.mem_of_find?_eq_some h, by simpa using List.find?_some h⟩

end LedgerSnapshot

/-- Splits paise over weights, the paise the cuts leave to the largest remainders. -/
def apportion (total : ℤ) (weights : List ℤ) : List ℤ :=
  let wSum := weights.sum
  if wSum ≤ 0 ∨ total ≤ 0 then weights.map fun _ => 0
  else
    let base := weights.map fun w => total * w / wSum
    let remainders := weights.map fun w => total * w % wSum
    let leftover := total - base.sum
    let order := remainders.zipIdx.insertionSort
      fun a b => b.1 < a.1 ∨ (a.1 = b.1 ∧ a.2 ≤ b.2)
    bump base ((order.take leftover.toNat).map Prod.snd)

@[simp] theorem apportion_length (total : ℤ) (weights : List ℤ) :
    (apportion total weights).length = weights.length := by
  unfold apportion
  dsimp only
  split_ifs
  · simp
  · rw [bump_length, List.length_map]

/-- What the cuts leave is what the remainders come to. -/
theorem cuts_and_remainders (total : ℤ) (weights : List ℤ) (wSum : ℤ) :
    wSum * (weights.map fun w => total * w / wSum).sum +
      (weights.map fun w => total * w % wSum).sum = total * weights.sum := by
  induction weights with
  | nil => simp
  | cons w weights ih =>
    have hw := Int.mul_ediv_add_emod (total * w) wSum
    simp only [List.map_cons, List.sum_cons]
    linarith

theorem remainders_bounds (total : ℤ) (weights : List ℤ) {wSum : ℤ} (hpos : 0 < wSum) :
    0 ≤ (weights.map fun w => total * w % wSum).sum ∧
      (weights.map fun w => total * w % wSum).sum ≤ wSum * weights.length := by
  induction weights with
  | nil => simp
  | cons w weights ih =>
    have hlow := Int.emod_nonneg (total * w) hpos.ne'
    have hhigh := Int.emod_lt_of_pos (total * w) hpos
    simp only [List.map_cons, List.sum_cons, List.length_cons, Nat.cast_add, Nat.cast_one, mul_add,
      mul_one]
    omega

theorem apportion_sum {total : ℤ} {weights : List ℤ} (htotal : 0 ≤ total) (hw : 0 < weights.sum) :
    (apportion total weights).sum = total := by
  unfold apportion
  dsimp only
  split_ifs with hnone
  · simp
    omega
  · have hparts := cuts_and_remainders total weights weights.sum
    obtain ⟨hlow, hhigh⟩ := remainders_bounds total weights hw
    set base := weights.map fun w => total * w / weights.sum with hbase
    have hnonneg : 0 ≤ total - base.sum := by
      by_contra hneg
      nlinarith
    have hle : total - base.sum ≤ weights.length := by
      by_contra hgt
      nlinarith
    rw [bump_sum]
    · simp only [List.length_map, List.length_take, List.length_insertionSort, List.length_zipIdx]
      omega
    · intro i hi
      obtain ⟨p, hp, rfl⟩ := List.mem_map.mp hi
      have hmem := (List.perm_insertionSort _ _).mem_iff.mp (List.mem_of_mem_take hp)
      have := (List.mem_zipIdx' hmem).1
      simpa [hbase] using this

end Caflow.Reporting
