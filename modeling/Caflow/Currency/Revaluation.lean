import Caflow.Accounting.Journal
import Caflow.Accounting.ReverseEntry
import Caflow.Currency.Conversion
import Caflow.Lib.Calendar
import Caflow.Lib.Dict
import Caflow.Lib.SortByKey

namespace Caflow.Currency.Revaluation
open Accounting Accounting.Kernel Accounting.Kernel.Reversal Calendar IsoDate Text Tally

def base : String := "INR"

def orBase (currency : String) : String := if currency = "" then base else currency

def isoformat (day : Day) : String :=
  String.ofList (digits 4 day.year ++ '-' :: (digits 2 day.month ++ '-' :: digits 2 day.day))

/-- The date a stored text begins with. -/
def dateText (text : String) : String := String.ofList (text.toList.take 10)

/-- What is retranslated: the receivables and the payables of a currency as one, and each bank
account by itself. -/
inductive Item where
  | receivable
  | payable
  | bank (account : String)
  deriving DecidableEq

def Item.type : Item → String
  | receivable => "receivable"
  | payable => "payable"
  | bank _ => "bank"

def Item.ref : Item → Option String
  | bank account => some account
  | _ => none

structure Key where
  currency : String
  item : Item
  deriving DecidableEq

def Key.order (key : Key) : List String := [key.currency, key.item.type, key.item.ref.getD ""]

/-- A row of `client_sales_invoices`. -/
structure Invoice where
  txnCurrency : String
  totalPaise : ℤ
  paidPaise : ℤ
  creditedPaise : ℤ
  debitNotePaise : ℤ
  txnTotal : ℤ
  paidTxn : ℤ
  status : String
  invoiceDate : String

/-- A row of `purchase_bills`. -/
structure Bill where
  txnCurrency : String
  netPayablePaise : ℤ
  paidPaise : ℤ
  debitedPaise : ℤ
  creditNotePaise : ℤ
  txnNetPayable : ℤ
  paidTxn : ℤ
  status : String
  billDate : String

structure BankAccount where
  currency : String
  coaAccountId : String

/-- A row of `journal_lines` with the date of its entry, which is posted. -/
structure LedgerLine where
  entryDate : String
  account : String
  debitPaise : ℤ
  creditPaise : ℤ
  txnDebit : ℤ
  txnCredit : ℤ
  txnCurrency : String

/-- A request to revalue, and what it reads besides the journals posted here and the runs before
it: the documents, the bank accounts and the lines posted in their currencies, the currency master
with the decimals of each, and what the firm's own lock refuses. -/
structure Request where
  clientId : String
  periodEnd : Day
  closingRates : List (String × ℚ)
  invoices : List Invoice
  bills : List Bill
  bankAccounts : List BankAccount
  foreignLines : List LedgerLine
  currencies : List (String × ℕ)
  chart : List AccountRow
  locked : String → Option Failure

/-- A row of `fx_revaluations`. -/
structure Run where
  periodEnd : Day
  key : Key
  closingRate : ℚ
  targetAdjustmentPaise : ℤ
  deltaPaise : ℤ
  journalEntryId : String
  reversalEntryId : String

structure Books where
  entries : List Entry
  revaluations : List Run

/-- A document that is still open in a foreign currency, as what is outstanding in that currency
and in rupees. -/
def openDocument (periodEnd txnCurrency status date : String) (foreignOut baseOut : ℤ) :
    Option (String × ℤ × ℤ) :=
  let currency := upper (orBase txnCurrency)
  if currency = base then none
  else if status = "draft" ∨ status = "cancelled" ∨ status = "paid" then none
  else if periodEnd < dateText date then none
  else if 0 < foreignOut then some (currency, foreignOut, baseOut)
  else none

def openReceivables (rows : List Invoice) (periodEnd : String) : List (String × ℤ × ℤ) :=
  rows.filterMap fun r => openDocument periodEnd r.txnCurrency r.status r.invoiceDate
    (r.txnTotal - r.paidTxn) (r.totalPaise + r.debitNotePaise - r.paidPaise - r.creditedPaise)

def openPayables (rows : List Bill) (periodEnd : String) : List (String × ℤ × ℤ) :=
  rows.filterMap fun r => openDocument periodEnd r.txnCurrency r.status r.billDate
    (r.txnNetPayable - r.paidTxn)
    (r.netPayablePaise + r.creditNotePaise - r.paidPaise - r.debitedPaise)

/-- The lines of a posted entry of rupees, as the kernel stamps them. -/
def baseLines (e : Entry) : List LedgerLine :=
  e.lines.map fun l => ⟨e.entryDate, l.account, l.debitPaise, l.creditPaise, l.debitPaise,
    l.creditPaise, base⟩

/-- What an account holds in its currency, and in rupees, by the lines in that currency alone. -/
def accountForeignAndBase (lines : List LedgerLine) (account asOf currency : String) : ℤ × ℤ :=
  let own := lines.filter fun l => l.account = account ∧ dateText l.entryDate ≤ asOf ∧
    upper (orBase l.txnCurrency) = upper (orBase currency)
  ((own.map fun l => l.txnDebit - l.txnCredit).sum,
    (own.map fun l => l.debitPaise - l.creditPaise).sum)

def openBankBalances (accounts : List BankAccount) (lines : List LedgerLine) (periodEnd : String) :
    List (String × String × ℤ × ℤ) :=
  accounts.filterMap fun b =>
    let currency := upper (orBase b.currency)
    if currency = base ∨ b.coaAccountId = "" then none
    else
      let balance := accountForeignAndBase lines b.coaAccountId periodEnd currency
      if balance.1 ≠ 0 ∨ balance.2 ≠ 0 then some (currency, b.coaAccountId, balance) else none

def journalLines (request : Request) (entries : List Entry) : List LedgerLine :=
  request.foreignLines ++ (entries.filter Entry.isPosted).flatMap baseLines

/-- What is outstanding in each currency, in that currency and in the rupees it is carried at. -/
def exposure (request : Request) (entries : List Entry) : List (Key × ℤ × ℤ) :=
  let periodEnd := isoformat request.periodEnd
  grouped
    ((openReceivables request.invoices periodEnd).map (fun o => (⟨o.1, .receivable⟩, o.2)) ++
      (openPayables request.bills periodEnd).map (fun o => (⟨o.1, .payable⟩, o.2)) ++
      (openBankBalances request.bankAccounts (journalLines request entries) periodEnd).map
        (fun o => (⟨o.1, .bank o.2.1⟩, o.2.2)))

/-- The runs of a closing day on one key. -/
def priorRuns (revaluations : List Run) (periodEnd : Day) (key : Key) : List Run :=
  revaluations.filter fun r => r.periodEnd = periodEnd ∧ r.key = key

/-- What has been posted for a key on a closing day. -/
def posted (revaluations : List Run) (periodEnd : Day) (key : Key) : ℤ :=
  ((priorRuns revaluations periodEnd key).map Run.deltaPaise).sum

/-- The closing rate of a key and the whole adjustment it asks for, or why there is none. -/
def target (request : Request) (key : Key) (figures : ℤ × ℤ) : Except String (ℚ × ℤ) :=
  match Dict.get request.currencies (upper key.currency) with
  | none => .error (key.currency ++ " is not in the currency master.")
  | some minorUnit =>
    match Dict.get request.closingRates key.currency with
    | none => .error ("No closing rate recorded for " ++ key.currency ++ " at " ++
        isoformat request.periodEnd ++ ". AS 11 retranslates a monetary item at the CLOSING " ++
        "rate, which is a fact about that date — record it and run again.")
    | some rate =>
      if rate ≤ 0 then .error ("The closing rate for " ++ key.currency ++ " must be positive.")
      else .ok (rate, toBaseMinor figures.1 rate minorUnit - figures.2)

structure Planned where
  closingRate : ℚ
  targetPaise : ℤ
  priorPaise : ℤ
  runCount : ℕ

def Planned.deltaPaise (planned : Planned) : ℤ := planned.targetPaise - planned.priorPaise

/-- A row of the plan; without its figures it says which rate is missing. -/
structure PlanRow where
  key : Key
  foreignOutstanding : ℤ
  carryingBasePaise : ℤ
  planned : Except String Planned

def planRow (request : Request) (revaluations : List Run) (exposed : Key × ℤ × ℤ) : PlanRow where
  key := exposed.1
  foreignOutstanding := exposed.2.1
  carryingBasePaise := exposed.2.2
  planned := (target request exposed.1 exposed.2).map fun t =>
    ⟨t.1, t.2, posted revaluations request.periodEnd exposed.1,
      (priorRuns revaluations request.periodEnd exposed.1).length⟩

/-- What a revaluation would post. -/
def plan (request : Request) (books : Books) : List PlanRow :=
  ((exposure request books.entries).insertionSort fun a b => a.1.order ≤ b.1.order).map
    (planRow request books.revaluations)

def PlanRow.delta (row : PlanRow) : ℤ :=
  match row.planned with
  | .ok planned => planned.deltaPaise
  | .error _ => 0

def PlanRow.posts (row : PlanRow) : Bool := row.delta ≠ 0

def wouldPost (rows : List PlanRow) : ℕ := rows.countP PlanRow.posts

/-- The rates and currencies a revaluation insists on before it posts anything. -/
def validate (request : Request) : List (Key × ℤ × ℤ) → Except Failure Unit
  | [] => .ok ()
  | exposed :: rest =>
    let currency := exposed.1.currency
    match Dict.get request.currencies (upper currency) with
    | none => .error (.http 422 ("Unsupported currency in revaluation: " ++ currency ++ "."))
    | some _ =>
      match Dict.get request.closingRates currency with
      | none => .error (.http 422 ("Missing closing rate for " ++ currency ++ " at " ++
          isoformat request.periodEnd ++ "."))
      | some rate =>
        if rate ≤ 0 then
          .error (.http 422 ("Closing rate for " ++ currency ++ " must be positive."))
        else validate request rest

/-- The control account of an item, behind the account of unrealised exchange differences. -/
def revalAccounts (request : Request) (item : Item) : Except Failure (String × String) :=
  match findAccount request.chart request.clientId "Foreign Exchange" (some "fx_unrealized") with
  | .error raised => .error raised
  | .ok fx =>
    match item with
    | .bank account => .ok (fx, account)
    | .receivable =>
      (findAccount request.chart request.clientId "Trade Receivable" (some "ar")).map (fx, ·)
    | .payable =>
      (findAccount request.chart request.clientId "Trade Payable" (some "ap")).map (fx, ·)

/-- An asset that is worth more is debited, and a liability that is larger credited. -/
def revalLines (item : Item) (fx control : String) (delta : ℤ) : List JournalLine :=
  match item with
  | .payable =>
    if 0 < delta then [⟨fx, delta, 0⟩, ⟨control, 0, delta⟩]
    else [⟨control, -delta, 0⟩, ⟨fx, 0, -delta⟩]
  | _ =>
    if 0 < delta then [⟨control, delta, 0⟩, ⟨fx, 0, delta⟩]
    else [⟨fx, -delta, 0⟩, ⟨control, 0, -delta⟩]

def refSuffix : Item → String
  | .bank account => "-" ++ String.ofList (account.toList.take 8)
  | _ => ""

def revalReference (periodEnd : Day) (key : Key) (runSeq : ℕ) : String :=
  "FXREVAL-" ++ (isoformat periodEnd ++ "-" ++ key.currency ++ "-" ++
    upper (String.ofList (key.item.type.toList.take 3)) ++ refSuffix key.item ++ "-" ++
    toString runSeq)

def revalPosting (periodEnd : Day) (key : Key) (fx control : String) (delta : ℤ) (runSeq : ℕ) :
    Posting where
  entryDate := isoformat periodEnd
  referenceNo := revalReference periodEnd key runSeq
  entryType := "Journal"
  lines := revalLines key.item fx control delta
  isPosted := true
  sourceType := none
  sourceId := none
  mustMatch := none

def postReval (ground : Ground) (request : Request) (entries : List Entry) (key : Key) (delta : ℤ)
    (runSeq : ℕ) : Except Failure String × List Entry :=
  match revalAccounts request key.item with
  | .error raised => (.error raised, entries)
  | .ok accounts =>
    createJournal ground .sound entries
      (revalPosting request.periodEnd key accounts.1 accounts.2 delta runSeq) none

/-- What is answered for a key, and the entry that was posted for it. -/
structure Adjustment where
  key : Key
  targetPaise : ℤ
  deltaPaise : ℤ
  journal : Option (String × String)

/-- One row of the plan posted: its entry, the reversal on the day after, and then the run. -/
def postRow (ground : Ground) (request : Request) (books : Books) (row : PlanRow) :
    Except Failure Adjustment × Books :=
  match row.planned with
  -- the decimal of a rate that is not there cannot be read
  | .error _ => (.error .fault, books)
  | .ok planned =>
    if planned.deltaPaise = 0 then (.ok ⟨row.key, planned.targetPaise, 0, none⟩, books)
    else
      let entry := postReval ground request books.entries row.key planned.deltaPaise
        (planned.runCount + 1)
      match entry.1 with
      | .error raised => (.error raised, ⟨entry.2, books.revaluations⟩)
      | .ok entryId =>
        let reversal := reverseEntry ground .sound entry.2 entryId
          (isoformat request.periodEnd.next)
        match reversal.1 with
        | .error raised => (.error raised, ⟨reversal.2, books.revaluations⟩)
        | .ok reversalId =>
          (.ok ⟨row.key, planned.targetPaise, planned.deltaPaise, some (entryId, reversalId)⟩,
            ⟨reversal.2, books.revaluations ++ [⟨request.periodEnd, row.key, planned.closingRate,
              planned.targetPaise, planned.deltaPaise, entryId, reversalId⟩]⟩)

def postRows (ground : Ground) (request : Request) :
    Books → List PlanRow → Except Failure (List Adjustment) × Books
  | books, [] => (.ok [], books)
  | books, row :: rows =>
    let first := postRow ground request books row
    match first.1 with
    | .error raised => (.error raised, first.2)
    | .ok adjustment =>
      let rest := postRows ground request first.2 rows
      (rest.1.map (adjustment :: ·), rest.2)

def revalue (ground : Ground) (request : Request) (books : Books) :
    Except Failure (List Adjustment) × Books :=
  match request.locked (isoformat request.periodEnd) with
  | some refused => (.error refused, books)
  | none =>
    match request.locked (isoformat request.periodEnd.next) with
    | some refused => (.error refused, books)
    | none =>
      match validate request (exposure request books.entries) with
      | .error raised => (.error raised, books)
      | .ok _ => postRows ground request books (plan request books)

section
variable {request : Request} {books : Books}

theorem upper_empty {s : String} (h : upper s = "") : s = "" := by
  have hlength := congrArg (fun t : String => t.toList.length) h
  have hnil : s.toList.length = 0 := by simpa [upper] using hlength
  simpa using hnil

theorem or_base_nonempty (currency : String) : orBase currency ≠ "" := by
  unfold orBase
  split
  · decide
  · assumption

/-- A currency of an account, once it is read, stays as it is read. -/
theorem upper_or_base (currency : String) :
    upper (orBase (upper (orBase currency))) = upper (orBase currency) := by
  have hne : upper (orBase currency) ≠ "" := fun h => or_base_nonempty currency (upper_empty h)
  rw [orBase, if_neg hne, upper_upper]

/-- The journals a revaluation posts are in rupees, and no foreign balance reads them. -/
theorem overlay_unread (foreignLines : List LedgerLine) (entries : List Entry)
    (account asOf : String) {currency : String} (h : upper (orBase currency) ≠ base) :
    accountForeignAndBase (foreignLines ++ entries.flatMap baseLines) account asOf
      (upper (orBase currency)) =
    accountForeignAndBase foreignLines account asOf (upper (orBase currency)) := by
  have hnone : (entries.flatMap baseLines).filter (fun l => l.account = account ∧
      dateText l.entryDate ≤ asOf ∧
      upper (orBase l.txnCurrency) = upper (orBase (upper (orBase currency)))) = [] := by
    rw [List.filter_eq_nil_iff]
    intro l hl
    obtain ⟨e, -, he⟩ := List.mem_flatMap.mp hl
    obtain ⟨line, -, rfl⟩ := List.mem_map.mp he
    have hbase : upper (orBase base) = base := by decide
    rw [upper_or_base, hbase]
    simp [Ne.symm h]
  unfold accountForeignAndBase
  dsimp only
  rw [List.filter_append, hnone, List.append_nil]

/-- What is exposed is read from the documents, not from the journals revaluations have posted. -/
theorem exposure_kept (request : Request) (entries : List Entry) :
    exposure request entries = exposure request [] := by
  have hbank : openBankBalances request.bankAccounts (journalLines request entries)
      (isoformat request.periodEnd) =
      openBankBalances request.bankAccounts (journalLines request [])
        (isoformat request.periodEnd) := by
    refine List.filterMap_congr fun b _ => ?_
    dsimp only
    split
    · rfl
    · rename_i hforeign
      have hne : upper (orBase b.currency) ≠ base := fun h => hforeign (.inl h)
      unfold journalLines
      rw [overlay_unread _ _ _ _ hne, overlay_unread _ _ _ _ hne]
  unfold exposure
  dsimp only
  rw [hbank]

theorem exposure_nodup (request : Request) (entries : List Entry) :
    ((exposure request entries).map Prod.fst).Nodup := by
  unfold exposure
  rw [grouped_keys]
  exact first_keys_nodup _

/-- Where the rates are accepted, every key has its target. -/
theorem validated_targets {exposed : List (Key × ℤ × ℤ)} (h : validate request exposed = .ok ()) :
    ∀ x ∈ exposed, ∃ rate adjustment, target request x.1 x.2 = .ok (rate, adjustment) := by
  induction exposed with
  | nil => intro x hx; cases hx
  | cons y ys ih =>
    rw [validate] at h
    split at h
    · cases h
    · rename_i minorUnit hminor
      split at h
      · cases h
      · rename_i rate hrate
        split_ifs at h with hpositive
        intro x hx
        rcases List.mem_cons.mp hx with rfl | hx
        · refine ⟨rate, toBaseMinor x.2.1 rate minorUnit - x.2.2, ?_⟩
          rw [target, hminor]
          dsimp only
          rw [hrate]
          dsimp only
          rw [if_neg hpositive]
        · exact ih h x hx

/-- An adjustment moves its control account by what it is, an asset up and a liability down. -/
theorem reval_lines_net {fx control : String} (item : Item) (delta : ℤ) (h : control ≠ fx) :
    netOn control (revalLines item fx control delta) =
      if item = .payable then -delta else delta := by
  cases item <;> unfold revalLines <;> dsimp only <;> split <;>
    simp [net_on_cons, Ne.symm h]

end

end Caflow.Currency.Revaluation
