import Caflow.Accounting.Journal
import Caflow.Accounting.Kernel
import Caflow.Lib.Tally

namespace Caflow.Accounting.OpeningBalance
open Kernel Tally

/-- A customer or a vendor, as far as its opening balance goes. -/
structure PartyMaster where
  openingBalancePaise : ℤ
  openingBalanceDate : Option String

structure BankMaster where
  openingBalancePaise : ℤ
  openingBalanceDate : Option String
  coaAccountId : Option String

structure Masters where
  customers : List PartyMaster
  vendors : List PartyMaster
  banks : List BankMaster

/-- The client a sync is for, its firm's locked dates, and the year and month of the Indian day. -/
structure Client where
  clientId : String
  chart : List AccountRow
  financialYearStart : Option String
  validatePostingDate : String → Option Failure
  today : ℕ × ℕ

inductive Leg where
  | ar
  | ap
  | bank
  deriving DecidableEq

def sumOpening (rows : List PartyMaster) : ℤ := (rows.map PartyMaster.openingBalancePaise).sum

def fetchMasters (masters : Masters) : Masters where
  customers := unpaged masters.customers
  vendors := unpaged masters.vendors
  banks := unpaged masters.banks

def openingSource : String := "Opening"

def Entry.isOpening (entry : Kernel.Entry) : Bool := entry.sourceType = some openingSource

def existingOpeningDate (entries : List Kernel.Entry) : Option String :=
  ((entries.filter Entry.isOpening).map Kernel.Entry.entryDate).min?

/-- The date of the family, else of the financial year, else of the earliest master, else the
first of this year's April. -/
def defaultOpeningDate (client : Client) (masters : Masters) (entries : List Kernel.Entry) :
    String :=
  let dates := masters.customers.filterMap PartyMaster.openingBalanceDate ++
    masters.vendors.filterMap PartyMaster.openingBalanceDate ++
    masters.banks.filterMap BankMaster.openingBalanceDate
  let fyStart := if 4 ≤ client.today.2 then client.today.1 else client.today.1 - 1
  (((existingOpeningDate entries).or client.financialYearStart).or dates.min?).getD
    (toString fyStart ++ "-04-01")

section
variable (client : Client)

def receivable : Except Failure String :=
  findAccount client.chart client.clientId "Trade Receivable" (some "ar")

def payable : Except Failure String :=
  findAccount client.chart client.clientId "Trade Payable" (some "ap")

def genericBank : Except Failure String :=
  findAccount client.chart client.clientId "Bank" (some "bank")

def openingEquity : Except Failure String :=
  findAccount client.chart client.clientId "Opening Balance Equity" none

/-- The account of each leg, in the order the map is written: a later leg takes an account over. -/
def legAccounts (banks : List BankMaster) : List (String × Leg) :=
  (receivable client).toOption.toList.map (·, .ar) ++
    (payable client).toOption.toList.map (·, .ap) ++
    (genericBank client).toOption.toList.map (·, .bank) ++
    (banks.filterMap BankMaster.coaAccountId).map (·, .bank)

def legOf (legs : List (String × Leg)) (account : String) : Option Leg :=
  (legs.reverse.find? fun leg => leg.1 = account).map Prod.snd

/-- A target, looked up only when there is something to post. -/
def targetOn (account : Except Failure String) (paise : ℤ) : Except Failure (List (String × ℤ)) :=
  if paise = 0 then .ok [] else account.map fun id => [(id, paise)]

/-- What each account but the contra is to carry, debit-positive, from the masters. -/
def nonObe (masters : Masters) : Except Failure (List (String × ℤ)) := do
  let ar ← targetOn (receivable client) (sumOpening masters.customers)
  let ap ← targetOn (payable client) (-(sumOpening masters.vendors))
  let live := masters.banks.filter fun b => b.openingBalancePaise ≠ 0
  let byAccount := live.filterMap fun b => b.coaAccountId.map (·, b.openingBalancePaise)
  let generic := ((live.filter fun b => b.coaAccountId = none).map
    BankMaster.openingBalancePaise).sum
  let bank ← targetOn (genericBank client) generic
  return ar ++ ap ++ byAccount ++ bank

/-- The accounts of some amounts, each once, in the order of their ids. -/
def sortedAccounts (pairs : List (String × ℤ)) : List String :=
  (pairs.map Prod.fst).dedup.insertionSort (· ≤ ·)

def deltaLine (account : String) (d : ℤ) : Option JournalLine :=
  if 0 < d then some ⟨account, d, 0⟩
  else if d < 0 then some ⟨account, 0, -d⟩
  else none

def deltaLines (accounts : List String) (delta : String → ℤ) : List JournalLine :=
  accounts.filterMap fun account => deltaLine account (delta account)

/-- A line as an amount on its account, debit-positive. -/
def lineAmount (l : JournalLine) : String × ℤ := (l.account, l.debitPaise - l.creditPaise)

/-- Every line of the opening family. -/
def openingLines (entries : List Kernel.Entry) : List JournalLine :=
  (entries.filter Entry.isOpening).flatMap Kernel.Entry.lines

/-- What the opening family carries, as its two reads answer. -/
def currentOpening (entries : List Kernel.Entry) : List (String × ℤ) :=
  (unpaged ((unpaged (entries.filter Entry.isOpening)).flatMap Kernel.Entry.lines)).map lineAmount

/-- The contra of a whole position, or none where there is nothing to balance. -/
def contraOf (targets : List (String × ℤ)) : Except Failure (List (String × ℤ)) :=
  if targets = [] then .ok [] else
    (openingEquity client).map fun obe => [(obe, -(targets.map Prod.snd).sum)]

def planUnscoped (targets current : List (String × ℤ)) : Except Failure (List JournalLine) := do
  let contra ← contraOf client targets
  let target := targets ++ contra
  return deltaLines (sortedAccounts (target ++ current))
    fun account => tally target account - tally current account

def planScoped (targets current : List (String × ℤ)) (legs : List (String × Leg))
    (scope : List Leg) : Except Failure (List JournalLine) := do
  let accounts := (sortedAccounts (targets ++ current)).filter
    fun account => (legOf legs account).any (· ∈ scope)
  let delta := fun account => tally targets account - tally current account
  let contra := (accounts.map delta).sum
  if contra = 0 then return deltaLines accounts delta
  let obe ← openingEquity client
  return deltaLines accounts delta ++
    [⟨obe, if contra < 0 then -contra else 0, if 0 < contra then contra else 0⟩]

structure Figures where
  arPaise : ℤ
  apPaise : ℤ
  bankPaise : ℤ
  openingEquityPaise : ℤ

def figures (masters : Masters) : Figures :=
  let ar := sumOpening masters.customers
  let ap := sumOpening masters.vendors
  let bank := (masters.banks.map BankMaster.openingBalancePaise).sum
  ⟨ar, ap, bank, ar + bank - ap⟩

/-- The lines that bring the opening family to the masters. -/
def planOpening (masters : Masters) (entries : List Kernel.Entry) (scope : Option (List Leg)) :
    Except Failure (List JournalLine × Figures) := do
  let targets ← nonObe client masters
  let current := currentOpening entries
  let lines ← match scope with
    | none => planUnscoped client targets current
    | some scope => planScoped client targets current (legAccounts client masters.banks) scope
  return (lines, figures masters)

end

/-- One call of `post_opening_balances`. `suffix` is what its reference draws. -/
structure SyncCall where
  openingDate : Option String
  scope : Option (List Leg)
  suffix : String
  link : Link

structure Summary where
  posted : Option String
  openingDate : String
  adjustmentLines : ℕ
  figures : Figures

def SyncCall.date (call : SyncCall) (client : Client) (masters : Masters)
    (entries : List Kernel.Entry) : String :=
  call.openingDate.getD (defaultOpeningDate client (fetchMasters masters) entries)

def SyncCall.reference (call : SyncCall) : String := "OPENING-BALANCE-" ++ call.suffix

def SyncCall.posting (call : SyncCall) (date : String) (lines : List JournalLine) : Posting where
  entryDate := date
  referenceNo := call.reference
  entryType := "Opening"
  lines := lines
  isPosted := true
  sourceType := some openingSource
  sourceId := none
  mustMatch := none

/-- Brings the opening family to the masters with one entry, or finds it there. -/
def postOpeningBalances (ground : Ground) (client : Client) (masters : Masters)
    (entries : List Kernel.Entry) (call : SyncCall) :
    Except Failure Summary × List Kernel.Entry :=
  let fetched := fetchMasters masters
  let date := call.date client masters entries
  match client.validatePostingDate date with
  | some refused => (.error refused, entries)
  | none =>
    match planOpening client fetched entries call.scope with
    | .error raised => (.error raised, entries)
    | .ok ([], figures) => (.ok ⟨none, date, 0, figures⟩, entries)
    | .ok (lines, figures) =>
      let next := Kernel.createJournal ground call.link entries (call.posting date lines) none
      (next.1.map fun id => ⟨some id, date, lines.length, figures⟩, next.2)

/-- What happens to a client: its masters are edited, or a sync is called. -/
inductive Event where
  | edit (masters : Masters)
  | sync (call : SyncCall)

structure Books where
  masters : Masters
  entries : List Kernel.Entry

def step (ground : Ground) (client : Client) (books : Books) : Event → Books
  | .edit masters => { books with masters := masters }
  | .sync call =>
    { books with entries := (postOpeningBalances ground client books.masters books.entries call).2 }

def run (ground : Ground) (client : Client) (books : Books) (events : List Event) : Books :=
  events.foldl (step ground client) books

end Caflow.Accounting.OpeningBalance
