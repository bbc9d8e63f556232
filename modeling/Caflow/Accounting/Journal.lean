import Caflow.Failure
import Caflow.Text

namespace Caflow.Accounting
open Text

/-- A row of a firm's `chart_of_accounts`; one without a client is the firm's own. -/
structure AccountRow where
  id : String
  clientId : Option String
  accountName : String
  systemAccountKey : Option String
  isActive : Bool
  deriving DecidableEq

/-- `ILIKE '%name%'`. -/
def nameContains (accountName name : String) : Bool :=
  (lower accountName).toList.tails.any (lower name).toList.isPrefixOf

/-- An account by its system key, which is firm-wide, and else by its name. -/
def findAccount (chart : List AccountRow) (clientId name : String) (systemKey : Option String) :
    Except Failure String :=
  let byKey := systemKey.bind fun key =>
    chart.find? fun row => row.systemAccountKey = some key ∧ row.isActive
  let byName := chart.find? fun row =>
    (row.clientId = some clientId ∨ row.clientId = none) ∧ nameContains row.accountName name ∧
      row.isActive
  match byKey.or byName with
  | some row => .ok row.id
  | none => .error (.valueError ("Required account not found: %" ++ name ++
      "%. Please set up Chart of Accounts before posting."))

/-- One side of a journal entry on one account, in paise. -/
structure JournalLine where
  account : String
  debitPaise : ℤ
  creditPaise : ℤ
  deriving DecidableEq

/-- A posted entry. Its reference and date are what the kernel knows it by. -/
structure JournalEntry where
  entryDate : String
  referenceNo : String
  lines : List JournalLine
  deriving DecidableEq

def totalDebit (lines : List JournalLine) : ℤ := (lines.map JournalLine.debitPaise).sum

def totalCredit (lines : List JournalLine) : ℤ := (lines.map JournalLine.creditPaise).sum

/-- The entry already live under this number and date. -/
def liveEntryFor (journal : List JournalEntry) (entryDate referenceNo : String) :
    Option JournalEntry :=
  if referenceNo = "" then none
  else journal.find? (fun e => e.referenceNo = referenceNo ∧ e.entryDate = entryDate)

/-- The posting kernel: an entry balances and moves something, and an entry already live under
its number and date answers for it. -/
def createJournal (journal : List JournalEntry) (entryDate referenceNo : String)
    (lines : List JournalLine) : Except Failure (List JournalEntry) :=
  if totalDebit lines ≠ totalCredit lines then
    .error (.valueError ("Journal imbalance: debit=" ++ toString (totalDebit lines) ++
      " credit=" ++ toString (totalCredit lines) ++ " for ref=" ++ referenceNo))
  else if totalDebit lines = 0 then
    .error (.valueError ("Refusing to post a zero-value journal entry for ref=" ++ referenceNo))
  else match liveEntryFor journal entryDate referenceNo with
    | some _ => .ok journal
    | none => .ok (journal ++ [⟨entryDate, referenceNo, lines⟩])

/-- A posting that reports its failure and leaves the books as they are. -/
def postOrLeave (journal : List JournalEntry) (entryDate referenceNo : String)
    (lines : List JournalLine) : List JournalEntry :=
  match createJournal journal entryDate referenceNo lines with
  | .ok posted => posted
  | .error _ => journal

/-- Debits less credits of some lines on an account. -/
def netOn (account : String) (lines : List JournalLine) : ℤ :=
  ((lines.filter (fun l => l.account = account)).map
    (fun l => l.debitPaise - l.creditPaise)).sum

/-- The net debit posted to an account. -/
def netDebit (account : String) (journal : List JournalEntry) : ℤ :=
  (journal.map (fun e => netOn account e.lines)).sum

@[simp] theorem net_on_nil : netOn account [] = 0 := rfl

theorem net_on_cons (account : String) (l : JournalLine) (ls : List JournalLine) :
    netOn account (l :: ls) =
      (if l.account = account then l.debitPaise - l.creditPaise else 0) + netOn account ls := by
  unfold netOn
  rw [List.filter_cons]
  split
  · rename_i h
    simp [of_decide_eq_true h]
  · rename_i h
    simp [of_decide_eq_false (Bool.eq_false_iff.mpr h)]

theorem net_on_other (h : ∀ l ∈ ls, l.account ≠ account) : netOn account ls = 0 := by
  have hnone : ls.filter (fun l => l.account = account) = [] := by
    rw [List.filter_eq_nil_iff]
    intro l hl
    simpa using h l hl
  simp [netOn, hnone]

@[simp] theorem net_debit_nil : netDebit account [] = 0 := rfl

@[simp] theorem net_debit_concat (account : String) (journal : List JournalEntry)
    (e : JournalEntry) :
    netDebit account (journal ++ [e]) = netDebit account journal + netOn account e.lines := by
  simp [netDebit]

/-- No entry is live under this number and date. -/
def Fresh (journal : List JournalEntry) (entryDate referenceNo : String) : Prop :=
  liveEntryFor journal entryDate referenceNo = none

instance (journal : List JournalEntry) (entryDate referenceNo : String) :
    Decidable (Fresh journal entryDate referenceNo) :=
  inferInstanceAs (Decidable (_ = none))

/-- A balanced entry that is not nothing is posted when its number and date are new. -/
theorem post_fresh (hb : totalDebit lines = totalCredit lines) (hz : totalDebit lines ≠ 0)
    (hf : Fresh journal date ref) :
    postOrLeave journal date ref lines = journal ++ [⟨date, ref, lines⟩] := by
  rw [Fresh] at hf
  simp [postOrLeave, createJournal, hb, hb ▸ hz, hf]

/-- Whatever becomes of a posting, it moves no account that none of its lines is on. -/
theorem post_elsewhere (h : ∀ l ∈ lines, l.account ≠ account) :
    netDebit account (postOrLeave journal date ref lines) = netDebit account journal := by
  unfold postOrLeave createJournal
  split_ifs with hb hz
  · rfl
  · rfl
  · cases liveEntryFor journal date ref with
    | some e => rfl
    | none => simp [net_on_other h]

end Caflow.Accounting
