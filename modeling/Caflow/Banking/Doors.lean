import Caflow.Banking.Line
import Caflow.Lib.Interleaving

namespace Caflow.Banking.Doors
open Interleaving

/-- Where a live entry for the line's cash comes from: the line itself, or the receipt or payment
a call made from it. -/
inductive Origin (ι : Type) where
  | line
  | settlement (call : ι)
  deriving DecidableEq

/-- The line, the live entries that record its cash, in the order they were made, and the party of
each of the client's documents. -/
structure Store (ι : Type) where
  line : BankLine
  entries : List (Origin ι)
  invoiceCustomer : String → Option String
  billVendor : String → Option String

inductive Refusal where
  | alreadyJournalled
  | notPostable (failure : Failure)
  | alreadyMatchedOrPosted
  | zeroAmount
  | debitCannotSettleInvoices
  | creditCannotSettleBills
  | nothingSelected
  | exceedsTransaction (allocated cap : ℤ)
  | notThisClients (missing : List String)
  | severalParties
  | engine (failure : Failure)
  | invalidCategory
  | alreadyPosted
  | notThisClientsBooks

/-- A call of `match_and_settle_multi`, with the id its receipt or payment gets. -/
structure Settlement where
  sales : Bool
  allocations : List (String × ℤ)
  tdsPaise : ℤ
  documentId : String

inductive Call where
  /-- What the period, the statement's currency and the accounts make of the line it reads. -/
  | post (plan : BankLine → Option Failure)
  | settle (settlement : Settlement)
  | match_ (entityType : EntityType) (entityId : String) (category : Option String) (owned : Bool)
  | unmatch

inductive Phase where
  | readLine
  | createJournal
  | readAgain (journalId : ℕ)
  | claim (journalId : ℕ) (prior : MatchStatus)
  | readDocuments (raw : MatchStatus)
  | claimSettlement (raw : MatchStatus)
  | engine (raw : MatchStatus)
  | release (raw : MatchStatus) (failure : Failure)
  | writePosted (journalId : ℕ)
  | checkOwner
  | write
  | finished
  | refused (refusal : Refusal)

def Phase.Ended : Phase → Prop
  | .finished | .refused _ => True
  | _ => False

instance : DecidablePred Phase.Ended
  | .finished | .refused _ => isTrue trivial
  | .readLine | .createJournal | .readAgain _ | .claim _ _ | .readDocuments _ | .claimSettlement _
  | .engine _ | .release _ _ | .writePosted _ | .checkOwner | .write => isFalse id

/-- What `match_and_settle_multi` asks of the line it reads. -/
def Settlement.refusal (s : Settlement) (line : BankLine) : Option Refusal :=
  let cap := line.amount + if s.sales then s.tdsPaise else 0
  let allocated := (s.allocations.map Prod.snd).sum
  if line.matchStatus = .posted ∨ line.matchStatus = .matched ∨ line.postedJournalId ≠ none then
    some .alreadyMatchedOrPosted
  else if line.amount ≤ 0 then some .zeroAmount
  else if s.sales ∧ ¬ line.isCredit then some .debitCannotSettleInvoices
  else if ¬ s.sales ∧ line.isCredit then some .creditCannotSettleBills
  else if s.allocations = [] then some .nothingSelected
  else if cap < allocated then some (.exceedsTransaction allocated cap)
  else none

/-- The documents are this client's and belong to one party. -/
def Settlement.documentsRefusal (s : Settlement) (party : String → Option String) : Option Refusal :=
  let ids := s.allocations.map Prod.fst
  let missing := ids.filter fun d => (party d).isNone
  if missing ≠ [] then some (.notThisClients missing)
  else if ((ids.filterMap party).dedup).length ≠ 1 then some .severalParties
  else none

variable {ι : Type} [DecidableEq ι]

/-- The entry under the line's own reference, made unless it is there. -/
def Store.createJournal (store : Store ι) : Store ι × ℕ :=
  match store.entries.findIdx? (· = .line) with
  | some journalId => (store, journalId)
  | none => ({ store with entries := store.entries ++ [.line] }, store.entries.length)

def postStep (plan : BankLine → Option Failure) (store : Store ι) (phase : Phase) :
    Store ι × Phase :=
  match phase with
  | .readLine =>
    if store.line.postedJournalId ≠ none ∨ store.line.matchStatus = .posted then
      (store, .refused .alreadyJournalled)
    else
      match plan store.line with
      | some failure => (store, .refused (.notPostable failure))
      | none => (store, .createJournal)
  | .createJournal => (store.createJournal.1, .readAgain store.createJournal.2)
  | .readAgain journalId =>
    if store.line.matchStatus = .posted then (store, .finished)
    else (store, .claim journalId store.line.matchStatus)
  | .claim journalId prior =>
    if store.line.matchStatus = prior then
      ({ store with line := store.line.postedBy journalId }, .finished)
    else (store, .finished)
  | _ => (store, phase)

/-- The receipt or payment engine is one statement: it makes its entry, or fails and makes none. -/
def settleStep (i : ι) (s : Settlement) (store : Store ι) (phase : Phase) (reply : Option Failure) :
    Store ι × Phase :=
  match phase with
  | .readLine =>
    match s.refusal store.line with
    | some refusal => (store, .refused refusal)
    | none => (store, .readDocuments store.line.matchStatus)
  | .readDocuments raw =>
    match s.documentsRefusal (if s.sales then store.invoiceCustomer else store.billVendor) with
    | some refusal => (store, .refused refusal)
    | none => (store, .claimSettlement raw)
  | .claimSettlement raw =>
    if store.line.matchStatus = raw ∧ store.line.postedJournalId = none then
      ({ store with line := { store.line with matchStatus := .matched } }, .engine raw)
    else (store, .refused .alreadyMatchedOrPosted)
  | .engine raw =>
    match reply with
    | some failure => (store, .release raw failure)
    | none =>
      ({ store with entries := store.entries ++ [.settlement i] }, .writePosted store.entries.length)
  | .release raw failure =>
    if store.line.matchStatus = .matched then
      ({ store with line := { store.line with matchStatus := raw } }, .refused (.engine failure))
    else (store, .refused (.engine failure))
  | .writePosted journalId =>
    let entityType := if s.sales then EntityType.receipt else .purchasePayment
    let linked := store.line.matchedTo entityType s.documentId (matchDefaultCategory entityType)
    ({ store with line := linked.postedBy journalId }, .finished)
  | _ => (store, phase)

def matchStep (entityType : EntityType) (entityId : String) (category : Option String) (owned : Bool)
    (store : Store ι) (phase : Phase) : Store ι × Phase :=
  match phase with
  | .readLine =>
    if category.any fun c => c ∉ categories then (store, .refused .invalidCategory)
    else if store.line.matchStatus = .posted then (store, .refused .alreadyPosted)
    else if store.line.postedJournalId ≠ none then (store, .refused .alreadyJournalled)
    else (store, .checkOwner)
  | .checkOwner =>
    if entityType = .manual ∨ owned then (store, .write) else (store, .refused .notThisClientsBooks)
  | .write =>
    let chosen := category <|> matchDefaultCategory entityType
    ({ store with line := store.line.matchedTo entityType entityId chosen }, .finished)
  | _ => (store, phase)

def unmatchStep (store : Store ι) (phase : Phase) : Store ι × Phase :=
  match phase with
  | .readLine =>
    if store.line.matchStatus = .posted then (store, .refused .alreadyPosted)
    else if store.line.postedJournalId ≠ none then (store, .refused .alreadyJournalled)
    else (store, .write)
  | .write => ({ store with line := store.line.unmatched }, .finished)
  | _ => (store, phase)

def advance (calls : ι → Call) (i : ι) (store : Store ι) (phase : Phase) (reply : Option Failure) :
    Store ι × Phase :=
  match calls i with
  | .post plan => postStep plan store phase
  | .settle s => settleStep i s store phase reply
  | .match_ entityType entityId category owned =>
    matchStep entityType entityId category owned store phase
  | .unmatch => unmatchStep store phase

def start (store : Store ι) : World ι (Store ι) Phase := ⟨store, fun _ => .readLine⟩

end Caflow.Banking.Doors
