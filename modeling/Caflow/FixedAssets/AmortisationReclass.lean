import Caflow.Lib.Calendar
import Caflow.Lib.Coverage
import Caflow.Lib.Dict

namespace Caflow.FixedAssets.AmortisationReclass
open Calendar Coverage Tally

inductive Outcome where
  | moves | pointedOnly | excluded
  deriving DecidableEq

/-- What is known about one live asset that still has its amortisation in the shared ledger. What its
own journals put there up to the stated date is apart from what they put there later, by the date of
the entry that will move it. -/
structure AssetPosition where
  assetId : String
  assetCode : String
  assetName : String
  registerPaise : ℤ
  postedToAsAtPaise : ℤ
  postedLater : List (Day × ℤ)

structure AssetPlan where
  assetId : String
  assetCode : String
  assetName : String
  outcome : Outcome
  registerPaise : ℤ
  fromSharedToAsAtPaise : ℤ
  fromCarriedPaise : ℤ
  later : List (Day × ℤ)
  reason : String

namespace AssetPlan

variable (plan : AssetPlan)

def fromSharedAfterAsAtPaise : ℤ := (plan.later.map Prod.snd).sum

def creditToOwnLedgerPaise : ℤ :=
  plan.fromSharedToAsAtPaise + plan.fromCarriedPaise + plan.fromSharedAfterAsAtPaise

end AssetPlan

/-- What moving one asset is made of, or why it is not moved. -/
def planAsset (saysRupees : ℤ → String) (pos : AssetPosition) : AssetPlan :=
  let laterTotal := (pos.postedLater.map Prod.snd).sum
  let still (outcome : Outcome) (registerPaise : ℤ) (reason : String) : AssetPlan :=
    ⟨pos.assetId, pos.assetCode, pos.assetName, outcome, registerPaise, 0, 0, [], reason⟩
  if pos.registerPaise < 0 ∨ pos.postedToAsAtPaise < 0 ∨ ∃ p ∈ pos.postedLater, p.2 < 0 then
    still .excluded pos.registerPaise
      ("The ledger shows more reversed than posted for this asset's depreciation, so what it holds cannot be told from what the " ++
      "register says. Look at its depreciation entries before moving it.")
  else
    let posted := pos.postedToAsAtPaise + laterTotal
    if pos.registerPaise = 0 ∧ posted = 0 then still .pointedOnly 0 ""
    else
      let carried := pos.registerPaise - posted
      if carried < 0 then
        still .excluded pos.registerPaise
          ("The ledger holds " ++ saysRupees (-carried) ++ " more of this asset's depreciation than the register records " ++
          "(register " ++ saysRupees pos.registerPaise ++ ", depreciation journals " ++ saysRupees posted ++ "). That is a difference to " ++
          "explain, not to move: a depreciation journal posted and the register did not follow, or the asset was entered at a " ++
          "written-down value.")
      else
        ⟨pos.assetId, pos.assetCode, pos.assetName, .moves, pos.registerPaise, pos.postedToAsAtPaise,
          carried, pos.postedLater.filter (·.2 ≠ 0), ""⟩

/-- Every date an entry of the batch is dated, earliest first. -/
def entryDates (plans : List AssetPlan) (asAt : Day) : List Day :=
  sortedSet ((plans.filter (·.outcome = .moves)).flatMap fun p =>
    (if p.fromSharedToAsAtPaise ≠ 0 ∨ p.fromCarriedPaise ≠ 0 then [asAt] else []) ++
      p.later.map Prod.fst)

/-- The last day of a day's month and of each month after it up to another day's. -/
def monthEnds (first last : Day) : List Day :=
  (List.range (last.monthIndex + 1 - first.monthIndex)).map fun i =>
    (first.addMonthsClamped i).monthEnd

/-- Every date that the ledgers are judged at: each entry's own, and every month end from the first
entry's month to the later of the last entry's and today's. -/
def checkDates (dates : List Day) (today : Day) : List Day :=
  match dates.head?, dates.getLast? with
  | some first, some last => sortedSet (dates ++ monthEnds first (max last today))
  | _, _ => []

structure BatchCheck where
  totalPaise : ℤ
  fromSharedPaise : ℤ
  fromCarriedPaise : ℤ
  refusals : List String

/-- What leaves the shared ledger on each date, in the order that the dates come up. -/
def outflowByDate (plans : List AssetPlan) (asAt : Day) (carriedSourceIsShared : Bool) :
    List (Day × ℤ) :=
  grouped ((plans.filter (·.outcome = .moves)).flatMap fun p =>
    let first := p.fromSharedToAsAtPaise + if carriedSourceIsShared then p.fromCarriedPaise else 0
    (if first ≠ 0 then [(asAt, first)] else []) ++ p.later)

/-- The balance of the ledger that is named for the carried-over part: not read, as at the stated date
alone, or by date. -/
inductive CarriedBalance where
  | unread
  | asAtAlone (paise : ℤ)
  | byDate (balances : List (Day × Option ℤ))

def CarriedBalance.points (asAt : Day) : CarriedBalance → Option (List (Day × Option ℤ))
  | .unread => none
  | .asAtAlone paise => some [(asAt, some paise)]
  | .byDate balances => some balances

/-- What a dictionary of balances says of a date, which may be that it could not be read. -/
def heldAt (balances : List (Day × Option ℤ)) (d : Day) : Option ℤ := (Dict.get balances d).join

section
variable (saysRupees : ℤ → String) (saysDate : Day → String)

def sharedRefusal (sharedBalanceAt : List (Day × Option ℤ)) (outflow : List (Day × ℤ)) :
    Option String :=
  (firstShort (tally outflow) (heldAt sharedBalanceAt) 0
      (sortedSet (sharedBalanceAt.map Prod.fst ++ outflow.map Prod.fst))).map fun short =>
    (heldAt sharedBalanceAt short.1).elim
      ("The balance of the shared Accumulated Depreciation ledger as at " ++ saysDate short.1 ++ " could not be read, so it " ++
        "cannot be checked against what would leave it. Nothing was posted.")
      fun held =>
        "The shared Accumulated Depreciation ledger holds " ++ saysRupees held ++ " for this client as at " ++ saysDate short.1 ++ " and " ++
        saysRupees short.2 ++ " would have left it by then. Moving that much would turn the tangible assets' contra into a debit " ++
        "balance on that date's balance sheet. Find where the rest of this depreciation sits (an imported trial balance often " ++
        "puts it in a ledger of its own) and name that ledger for the carried-over part, or state a later date, or leave " ++
        "these assets where they are."

def carriedRefusal (carriedBalanceAt : CarriedBalance) (asAt : Day) (fromCarriedPaise : ℤ) :
    Option String :=
  (carriedBalanceAt.points asAt).elim
    (some "The balance of the ledger named for the carried-over part could not be read. Nothing was posted.")
    fun points =>
      ((sortedSet (points.map Prod.fst)).find? fun d =>
          asAt ≤ d ∧ (heldAt points d).all (· < fromCarriedPaise)).map fun d =>
        "The ledger named for the carried-over part holds " ++ saysRupees ((heldAt points d).getD 0) ++ " as at " ++ saysDate d ++ " and " ++
        saysRupees fromCarriedPaise ++ " would leave it."

def ownRefusal (ownCreditPaise : Option ℤ) (alreadyInOwnLedgerPaise : ℤ) : Option String :=
  ownCreditPaise.elim
    (some "The balance of the Accumulated Amortisation ledger could not be read. Nothing was posted.")
    fun own =>
      if alreadyInOwnLedgerPaise < own then
        some ("The Accumulated Amortisation ledger already carries " ++ saysRupees own ++ " for this client and the assets " ++
          "already pointed at it account for " ++ saysRupees alreadyInOwnLedgerPaise ++ ": " ++ saysRupees (own - alreadyInOwnLedgerPaise) ++ " " ++
          "more than they explain (an imported trial balance mapped to it by name, or an entry made by hand). Moving more into it would " ++
          "double that. Which of the two is the mistake is for you to say; nothing is netted here.")
      else if own < alreadyInOwnLedgerPaise then
        some ("The Accumulated Amortisation ledger carries " ++ saysRupees own ++ " for this client and the assets already " ++
          "pointed at it account for " ++ saysRupees alreadyInOwnLedgerPaise ++ ": " ++ saysRupees (alreadyInOwnLedgerPaise - own) ++ " " ++
          "less than they should (a reclassification entry reversed or edited by hand, or an asset disposed of twice). Nothing is " ++
          "moved until that is looked at; nothing is netted here.")
      else none

/-- Whether a batch may be posted: what is said against it, in the order it is said. -/
def checkBatch (plans : List AssetPlan) (asAt : Day) (sharedBalanceAt : List (Day × Option ℤ))
    (carriedSourceIsShared : Bool) (carriedBalanceAt : CarriedBalance) (ownCreditPaise : Option ℤ)
    (alreadyInOwnLedgerPaise : ℤ) : BatchCheck :=
  let moving := plans.filter (·.outcome = .moves)
  let fromCarriedPaise := (moving.map AssetPlan.fromCarriedPaise).sum
  { totalPaise := (moving.map AssetPlan.creditToOwnLedgerPaise).sum
    fromSharedPaise :=
      (moving.map fun p => p.fromSharedToAsAtPaise + p.fromSharedAfterAsAtPaise).sum
    fromCarriedPaise
    refusals :=
      if moving = [] then []
      else
        (sharedRefusal saysRupees saysDate sharedBalanceAt
          (outflowByDate moving asAt carriedSourceIsShared)).toList ++
        (if carriedSourceIsShared = false ∧ fromCarriedPaise ≠ 0
          then (carriedRefusal saysRupees saysDate carriedBalanceAt asAt fromCarriedPaise).toList
          else []) ++
        (ownRefusal saysRupees ownCreditPaise alreadyInOwnLedgerPaise).toList }

end

/-- The ledgers that amortisation leaves. -/
inductive Source where
  | shared | carried
  deriving DecidableEq

/-- An entry of an asset's move: what it takes out of which ledger, all of it credited to the ledger of
its own. -/
structure Tranche where
  date : Day
  fromAccounts : List (Source × ℤ)

/-- The entries that an asset's move posts. -/
def tranches (asAt : Day) (carriedIsShared : Bool) (plan : AssetPlan) : List Tranche :=
  let shared := if plan.fromSharedToAsAtPaise ≠ 0 then [(Source.shared, plan.fromSharedToAsAtPaise)] else []
  let first :=
    if plan.fromCarriedPaise = 0 then shared
    else if carriedIsShared ∧ plan.fromSharedToAsAtPaise ≠ 0 then
      [(Source.shared, plan.fromSharedToAsAtPaise + plan.fromCarriedPaise)]
    else shared ++ [(if carriedIsShared then .shared else .carried, plan.fromCarriedPaise)]
  (if first = [] then [] else [⟨asAt, first⟩]) ++
    plan.later.map fun p => ⟨p.1, [(.shared, p.2)]⟩

/-- The entries of a batch. An excluded asset has none. -/
def posted (asAt : Day) (carriedIsShared : Bool) (plans : List AssetPlan) : List Tranche :=
  (plans.filter (·.outcome ≠ .excluded)).flatMap (tranches asAt carriedIsShared)

def Tranche.creditPaise (t : Tranche) : ℤ := (t.fromAccounts.map Prod.snd).sum

/-- What entries take out of a ledger, by date. -/
def takenFrom (source : Source) (entries : List Tranche) : List (Day × ℤ) :=
  entries.flatMap fun t => (t.fromAccounts.filter (·.1 = source)).map fun a => (t.date, a.2)

/-- A ledger's credit as at a date, once the entries are posted. -/
def creditAfter (before : Day → ℤ) (source : Source) (entries : List Tranche) (d : Day) : ℤ :=
  before d - leftBy (takenFrom source entries) d

/-- A ledger's credit read at each of some dates. -/
def readings (before : Day → ℤ) (dates : List Day) : List (Day × Option ℤ) :=
  dates.map fun d => (d, some (before d))

end Caflow.FixedAssets.AmortisationReclass
