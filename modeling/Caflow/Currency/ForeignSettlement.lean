import Caflow.Accounting.Journal
import Caflow.Currency.Conversion

namespace Caflow.Currency
open Accounting Rounding Text

inductive DocumentStatus where
  | draft
  /-- An invoice that is out, a bill that is in. -/
  | issued
  | partiallyPaid
  | paid
  | cancelled
  deriving DecidableEq

/-- Sales invoices and their receipts, or purchase bills and their payments. -/
inductive Side where
  | receivable
  | payable
  deriving DecidableEq

/-- A document in another currency. The rupees are beside the amounts of that currency. -/
structure Document where
  status : DocumentStatus
  totalPaise : ℤ
  paidPaise : ℤ
  /-- The notes that take off it: credit notes of an invoice, debit notes of a bill. -/
  loweredPaise : ℤ
  /-- The notes that add to it: debit notes of an invoice, credit notes of a bill. -/
  raisedPaise : ℤ
  txnCurrency : String
  exchangeRate : ℚ
  txnTotal : ℤ
  paidTxn : ℤ

namespace Document

variable (doc : Document)

/-- A rate that was never recorded is one. -/
def bookedRate : ℚ := if doc.exchangeRate = 0 then 1 else doc.exchangeRate

def outstanding : ℤ := doc.totalPaise + doc.raisedPaise - doc.loweredPaise - doc.paidPaise

/-- What a settlement takes for outstanding: the notes that add to the document are not read. -/
def baseOut : ℤ := doc.totalPaise - doc.paidPaise - doc.loweredPaise

def foreignOut : ℤ := doc.txnTotal - doc.paidTxn

/-- A document with a part of a settlement on it. -/
def settle (paise txn : ℤ) : Document :=
  { doc with
    paidPaise := doc.paidPaise + paise
    paidTxn := doc.paidTxn + txn
    status := if doc.paidTxn + txn ≥ doc.txnTotal then .paid else .partiallyPaid }

end Document

/-- What a request allocates to a document, in the currency of the request. -/
structure Asked where
  docId : Option String
  foreign : ℤ

/-- A part of a settlement: its document, and what it takes off it in both currencies. -/
structure Part where
  docId : String
  foreign : ℤ
  relieved : ℤ
  deriving DecidableEq

/-- A receipt or a payment in another currency, with the accounts its journal finds. -/
structure Settlement where
  currency : String
  minor : ℕ
  rate : ℚ
  totalForeign : ℤ
  tdsPaise : ℤ
  allocations : List Asked
  entryDate : String
  referenceNo : String
  cashAccount : String
  controlAccount : String
  fxAccount : String

namespace Side

def noun : Side → String
  | .receivable => "Invoice"
  | .payable => "Bill"

def lowerNoun : Side → String
  | .receivable => "invoice"
  | .payable => "bill"

def cash : Side → String
  | .receivable => "receipt"
  | .payable => "payment"

/-- A document that takes no settlement. -/
def closed (side : Side) (docId : String) (status : DocumentStatus) : Option Failure :=
  match side, status with
  | .receivable, .draft =>
    some (.http 422 ("Invoice " ++ docId ++ " is draft and cannot receive a payment."))
  | .receivable, .cancelled =>
    some (.http 422 ("Invoice " ++ docId ++ " is cancelled and cannot receive a payment."))
  | .payable, .cancelled =>
    some (.http 409 ("Bill " ++ docId ++ " is cancelled and cannot be paid."))
  | .payable, .draft =>
    some (.http 409 ("Bill " ++ docId ++ " is still a draft and has not been received yet."))
  | _, _ => none

def collision : Side → Failure
  | .receivable => .http 409 "A receipt numbering collision was detected; please retry."
  | .payable => .http 409 "A payment numbering collision was detected; please retry."

end Side

namespace Settlement

variable (side : Side) (call : Settlement) (docs : String → Option Document)

def asked : List Asked := call.allocations.filter (·.foreign > 0)

/-- A part as it is planned from what is read of its document. -/
def plan (a : Asked) : Except Failure Part :=
  let docId := a.docId.getD "None"
  match a.docId.bind docs with
  | none => .error (.http 422 (side.noun ++ " " ++ docId ++ " is not part of this client's books."))
  | some doc =>
    match side.closed docId doc.status with
    | some failure => .error failure
    | none =>
      if upper doc.txnCurrency ≠ call.currency then
        .error (.http 422 ("Currency mismatch: " ++ side.cash ++ " is " ++ call.currency ++ " but " ++
          side.lowerNoun ++ " " ++ docId ++ " is billed in " ++ doc.txnCurrency ++ "."))
      else if a.foreign > doc.foreignOut then
        .error (.http 422 ("Allocation " ++ minorUnitsText a.foreign call.minor ++ " exceeds " ++
          side.lowerNoun ++ " " ++ docId ++ " outstanding " ++
          minorUnitsText doc.foreignOut call.minor ++ " " ++ call.currency ++ "."))
      else if a.foreign ≠ doc.foreignOut ∧ doc.bookedRate ≤ 0 then
        .error (.valueError "exchange rate must be positive")
      else .ok ⟨docId, a.foreign,
        Currency.relieved doc.baseOut doc.foreignOut a.foreign doc.bookedRate call.minor⟩

def planAll : List Asked → Except Failure (List Part)
  | [] => .ok []
  | a :: rest =>
    match call.plan side docs a with
    | .error failure => .error failure
    | .ok part =>
      match planAll rest with
      | .error failure => .error failure
      | .ok parts => .ok (part :: parts)

def cashBase : ℤ := toBaseMinor call.totalForeign call.rate call.minor

def settledCashBase (parts : List Part) : ℤ :=
  toBaseMinor (parts.map Part.foreign).sum call.rate call.minor

/-- The cash that settles nothing: an advance at the rate of the cash. -/
def unallocBase (parts : List Part) : ℤ := call.cashBase - call.settledCashBase parts

def totalRelieved (parts : List Part) : ℤ := (parts.map Part.relieved).sum

/-- The realized gain, or the loss. -/
def fxDiff (parts : List Part) : ℤ :=
  match side with
  | .receivable => call.settledCashBase parts - totalRelieved parts
  | .payable => totalRelieved parts - call.settledCashBase parts

def fxLines (diff : ℤ) : List JournalLine :=
  if diff = 0 then []
  else if diff > 0 then [⟨call.fxAccount, 0, diff⟩]
  else [⟨call.fxAccount, -diff, 0⟩]

/-- The journal of a settlement. -/
def lines (parts : List Part) : List JournalLine :=
  let control := totalRelieved parts + call.unallocBase parts
  (match side with
    | .receivable => [⟨call.cashAccount, call.cashBase, 0⟩, ⟨call.controlAccount, 0, control⟩]
    | .payable => [⟨call.controlAccount, control, 0⟩, ⟨call.cashAccount, 0, call.cashBase⟩]) ++
  call.fxLines (call.fxDiff side parts)

/-- All that is checked before a document is touched, the posting of the journal with it. -/
def prepare : Except Failure (List Part) :=
  if side = .receivable ∧ call.tdsPaise ≠ 0 then
    .error (.http 422 "TDS on a foreign receipt is not supported yet.")
  else if call.rate ≤ 0 then .error (.http 422 "Exchange rate must be positive.")
  else if side = .payable ∧ call.totalForeign ≤ 0 then
    .error (.http 422 "Payment amount must be positive.")
  else
    match call.planAll side docs call.asked with
    | .error failure => .error failure
    | .ok parts =>
      if (parts.map Part.foreign).sum > call.totalForeign then
        .error (.http 422 ("Allocated foreign exceeds the " ++ side.cash ++ " amount."))
      else
        match createJournal [] call.entryDate call.referenceNo (call.lines side parts) with
        | .error failure => .error failure
        | .ok _ => .ok parts

end Settlement

/-- The loop that puts the parts on their documents, each read afresh. -/
def putParts (side : Side) (docs : String → Option Document) :
    List Part → (String → Option Document) × Option Failure
  | [] => (docs, none)
  | part :: rest =>
    match docs part.docId with
    | none => putParts side docs rest
    | some doc =>
      if doc.paidTxn + part.foreign > doc.txnTotal then
        (docs, some (.http 422 (side.noun ++ " " ++ part.docId ++ ": allocation would exceed " ++
          side.lowerNoun ++ " outstanding")))
      else putParts side
        (Function.update docs part.docId (some (doc.settle part.relieved part.foreign))) rest

/-- A settlement with no one else at the documents: the documents after it, and the journal of one
that is recorded. Its allocations are one for a document. -/
def settleForeign (side : Side) (call : Settlement) (docs : String → Option Document) :
    (String → Option Document) × Except Failure (List JournalLine) :=
  match call.prepare side docs with
  | .error failure => (docs, .error failure)
  | .ok parts =>
    match putParts side docs parts with
    | (put, some failure) => (put, .error failure)
    | (put, none) =>
      if (parts.map Part.docId).Nodup then (put, .ok (call.lines side parts))
      else (put, .error side.collision)

def createForeignReceipt (call : Settlement) (invoices : String → Option Document) :
    (String → Option Document) × Except Failure (List JournalLine) :=
  settleForeign .receivable call invoices

def createForeignPaymentCore (call : Settlement) (bills : String → Option Document) :
    (String → Option Document) × Except Failure (List JournalLine) :=
  settleForeign .payable call bills

section
variable {side : Side} {call : Settlement} {docs : String → Option Document}

theorem lines_balance (side : Side) (call : Settlement) (parts : List Part) :
    totalDebit (call.lines side parts) = totalCredit (call.lines side parts) := by
  unfold Settlement.lines Settlement.fxLines Settlement.fxDiff Settlement.unallocBase
  cases side <;>
  · dsimp only
    split_ifs <;> simp [totalDebit, totalCredit] <;> omega

/-! ### What is planned -/

/-- A part is planned of an open document with that much of it left. -/
theorem plan_ok {a : Asked} {part : Part} (h : call.plan side docs a = .ok part) :
    a.docId = some part.docId ∧ part.foreign = a.foreign ∧
      ∃ doc, docs part.docId = some doc ∧ a.foreign ≤ doc.foreignOut ∧
        (a.foreign ≠ doc.foreignOut → 0 < doc.bookedRate) ∧
        part.relieved = Currency.relieved doc.baseOut doc.foreignOut a.foreign doc.bookedRate
          call.minor := by
  unfold Settlement.plan at h
  dsimp only at h
  split at h
  · cases h
  · rename_i doc hdoc
    obtain ⟨docId, hid, hdoc⟩ := Option.bind_eq_some_iff.mp hdoc
    split at h
    · cases h
    · split_ifs at h with hcurrency hroom hrate
      obtain rfl := Except.ok.inj h
      refine ⟨by simp [hid], rfl, doc, by simpa [hid] using hdoc, not_lt.mp hroom, fun hpart => ?_, rfl⟩
      by_contra hnot
      exact hrate ⟨hpart, not_lt.mp hnot⟩

theorem plan_all_ok {asked : List Asked} {parts : List Part}
    (h : call.planAll side docs asked = .ok parts) :
    asked.map (call.plan side docs) = parts.map .ok := by
  induction asked generalizing parts with
  | nil =>
    obtain rfl : [] = parts := Except.ok.inj h
    rfl
  | cons a asked ih =>
    unfold Settlement.planAll at h
    split at h
    · cases h
    · rename_i part hpart
      split at h
      · cases h
      · rename_i rest hrest
        obtain rfl := Except.ok.inj h
        rw [List.map_cons, List.map_cons, hpart, ih hrest]

theorem prepare_ok {parts : List Part} (h : call.prepare side docs = .ok parts) :
    call.asked.map (call.plan side docs) = parts.map .ok := by
  unfold Settlement.prepare at h
  split_ifs at h
  split at h
  · cases h
  · rename_i planned hplanned
    split_ifs at h
    split at h
    · cases h
    · obtain rfl := Except.ok.inj h
      exact plan_all_ok hplanned

/-- What is planned is what was asked, one part for each. -/
theorem planned_of_asked {asked : List Asked} {parts : List Part}
    (h : asked.map (call.plan side docs) = parts.map .ok) {a : Asked} (ha : a ∈ asked) :
    ∃ part ∈ parts, call.plan side docs a = .ok part := by
  have hmem : call.plan side docs a ∈ parts.map .ok := by
    rw [← h]
    exact List.mem_map_of_mem ha
  obtain ⟨part, hpart, heq⟩ := List.mem_map.mp hmem
  exact ⟨part, hpart, heq.symm⟩

theorem asked_of_planned {asked : List Asked} {parts : List Part}
    (h : asked.map (call.plan side docs) = parts.map .ok) {part : Part} (hpart : part ∈ parts) :
    ∃ a ∈ asked, call.plan side docs a = .ok part := by
  have hmem : Except.ok part ∈ asked.map (call.plan side docs) := by
    rw [h]
    exact List.mem_map_of_mem hpart
  obtain ⟨a, ha, heq⟩ := List.mem_map.mp hmem
  exact ⟨a, ha, heq⟩

theorem planned_ids {asked : List Asked} {parts : List Part}
    (h : asked.map (call.plan side docs) = parts.map .ok) :
    asked.map Asked.docId = (parts.map Part.docId).map some := by
  induction asked generalizing parts with
  | nil =>
    obtain rfl : parts = [] := by simpa using h.symm
    rfl
  | cons a asked ih =>
    cases parts with
    | nil => simp at h
    | cons part parts =>
      obtain ⟨hfirst, hrest⟩ := List.cons.inj h
      rw [List.map_cons, List.map_cons, List.map_cons, ih hrest, (plan_ok hfirst).1]

theorem planned_distinct {asked : List Asked} {parts : List Part}
    (h : asked.map (call.plan side docs) = parts.map .ok) :
    (parts.map Part.docId).Nodup ↔ (asked.map Asked.docId).Nodup := by
  rw [planned_ids h]
  exact (List.nodup_map_iff (Option.some_injective _)).symm

/-! ### What is written -/

/-- The documents as the loop meets them, each with its part. -/
def moments (docs : String → Option Document) : List Part → List (Document × Part)
  | [] => []
  | part :: rest =>
    match docs part.docId with
    | none => moments docs rest
    | some doc =>
      if doc.paidTxn + part.foreign > doc.txnTotal then []
      else (doc, part) ::
        moments (Function.update docs part.docId (some (doc.settle part.relieved part.foreign))) rest

/-- Parts of different documents, each with that much left, are all put on, each on its document as
it was planned. -/
theorem put_parts_distinct (side : Side) {parts : List Part} (hdistinct : (parts.map Part.docId).Nodup)
    (hroom : ∀ part ∈ parts, ∃ doc, docs part.docId = some doc ∧ part.foreign ≤ doc.foreignOut) :
    (putParts side docs parts).2 = none ∧
      (∀ docId, docId ∉ parts.map Part.docId → (putParts side docs parts).1 docId = docs docId) ∧
      (∀ part ∈ parts, ∀ doc, docs part.docId = some doc →
        (putParts side docs parts).1 part.docId = some (doc.settle part.relieved part.foreign)) ∧
      ∀ m, m ∈ moments docs parts ↔ m.2 ∈ parts ∧ docs m.2.docId = some m.1 := by
  induction parts generalizing docs with
  | nil => simp [putParts, moments]
  | cons part parts ih =>
    obtain ⟨doc, hdoc, hfits⟩ := hroom part List.mem_cons_self
    rw [List.map_cons, List.nodup_cons] at hdistinct
    obtain ⟨hfirst, hrest⟩ := hdistinct
    have hother : ∀ other ∈ parts, other.docId ≠ part.docId := by
      rintro other hmem hsame
      exact hfirst (List.mem_map.mpr ⟨other, hmem, hsame⟩)
    have hin : ¬ doc.paidTxn + part.foreign > doc.txnTotal := by
      unfold Document.foreignOut at hfits
      omega
    have hnext : ∀ other ∈ parts, Function.update docs part.docId
        (some (doc.settle part.relieved part.foreign)) other.docId = docs other.docId :=
      fun other hmem => Function.update_of_ne (hother other hmem) _ _
    have hroomNext : ∀ other ∈ parts, ∃ found, Function.update docs part.docId
        (some (doc.settle part.relieved part.foreign)) other.docId = some found ∧
          other.foreign ≤ found.foreignOut := by
      intro other hmem
      rw [hnext other hmem]
      exact hroom other (List.mem_cons_of_mem _ hmem)
    obtain ⟨hnone, hkept, hput, hmoments⟩ := ih hrest hroomNext
    simp only [putParts, moments, hdoc, if_neg hin]
    refine ⟨hnone, fun docId hout => ?_, fun other hmem found hfound => ?_, fun m => ?_⟩
    · rw [List.map_cons, List.mem_cons, not_or] at hout
      rw [hkept docId hout.2, Function.update_of_ne hout.1]
    · rcases List.mem_cons.mp hmem with rfl | hmem
      · obtain rfl : doc = found := by simpa [hdoc] using hfound
        rw [hkept _ hfirst, Function.update_self]
      · exact hput other hmem found (by rw [hnext other hmem, hfound])
    · rw [List.mem_cons, List.mem_cons, hmoments]
      constructor
      · rintro (rfl | ⟨hmem, hfound⟩)
        · exact ⟨.inl rfl, hdoc⟩
        · rw [hnext m.2 hmem] at hfound
          exact ⟨.inr hmem, hfound⟩
      · rintro ⟨hsame | hmem, hfound⟩
        · left
          rw [hsame, hdoc] at hfound
          exact Prod.ext (Option.some.inj hfound).symm hsame
        · right
          rw [hnext m.2 hmem]
          exact ⟨hmem, hfound⟩

/-- A document that is settled in its own currency is settled in rupees, and says so. -/
def Document.Cleared (doc : Document) : Prop :=
  doc.paidTxn = doc.txnTotal → doc.outstanding = 0 ∧ doc.status = .paid

/-- A settlement that passes its checks is recorded, its journal balances, each part takes off its
document nothing negative and no more than is outstanding then, and every document that it settles
is cleared. -/
def Clears (docs : String → Option Document) (side : Side) (call : Settlement) : Prop :=
  ∀ parts, call.prepare side docs = .ok parts →
    (settleForeign side call docs).2 = .ok (call.lines side parts) ∧
    totalDebit (call.lines side parts) = totalCredit (call.lines side parts) ∧
    (∀ m ∈ moments docs parts, 0 ≤ m.2.relieved ∧ m.2.relieved ≤ m.1.outstanding) ∧
    ∀ part ∈ parts, ∀ doc, (settleForeign side call docs).1 part.docId = some doc → doc.Cleared

/-- No document is named twice. What settles the rest of a document finds no note that adds to it,
and notes and earlier settlements of no more than its total; what settles less is worth less than
half a paisa above what is outstanding, at the rate the document is booked at. -/
def Fits (docs : String → Option Document) (side : Side) (call : Settlement) : Prop :=
  ∀ parts, call.prepare side docs = .ok parts →
    (call.asked.map Asked.docId).Nodup ∧
    ∀ a ∈ call.asked, ∀ doc, a.docId.bind docs = some doc →
      if a.foreign = doc.foreignOut then doc.raisedPaise = 0 ∧ 0 ≤ doc.baseOut
      else a.foreign * doc.bookedRate * (10 : ℚ) ^ (baseMinorUnit - call.minor) <
        doc.outstanding + 1 / 2

theorem to_base_minor_le_iff {txnMinor n : ℤ} {rate : ℚ} (h : 0 ≤ txnMinor) (hrate : 0 < rate)
    (minor : ℕ) : toBaseMinor txnMinor rate minor ≤ n ↔
      txnMinor * rate * (10 : ℚ) ^ (baseMinorUnit - minor) < n + 1 / 2 := by
  have hworth : 0 ≤ txnMinor * rate * (10 : ℚ) ^ (baseMinorUnit - minor) := by positivity
  unfold toBaseMinor
  rw [half_up_of_nonneg hworth, ← Int.lt_add_one_iff, Int.floor_lt]
  push_cast
  constructor <;> intro hlt <;> linarith

/-- A part does what it should to its document, or not, by what it meets there. -/
theorem part_clears_iff {a : Asked} {part : Part} {doc : Document} (hpositive : 0 < a.foreign)
    (hplan : call.plan side docs a = .ok part) (hdoc : docs part.docId = some doc) :
    ((0 ≤ part.relieved ∧ part.relieved ≤ doc.outstanding) ∧
        (doc.settle part.relieved part.foreign).Cleared) ↔
      if a.foreign = doc.foreignOut then doc.raisedPaise = 0 ∧ 0 ≤ doc.baseOut
      else a.foreign * doc.bookedRate * (10 : ℚ) ^ (baseMinorUnit - call.minor) <
        doc.outstanding + 1 / 2 := by
  obtain ⟨-, hforeign, found, hfound, hroom, hrate, hrelieved⟩ := plan_ok hplan
  obtain rfl : doc = found := by simpa [hdoc] using hfound
  unfold relieved at hrelieved
  by_cases hall : a.foreign = doc.foreignOut
  · have hsettled : doc.paidTxn + part.foreign = doc.txnTotal := by
      rw [hforeign, hall, Document.foreignOut]
      omega
    rw [if_pos hall] at hrelieved ⊢
    have hpaid : (doc.settle part.relieved part.foreign).status = .paid := by
      simp [Document.settle, hsettled]
    have hleft : (doc.settle part.relieved part.foreign).outstanding = doc.raisedPaise := by
      simp only [Document.settle, Document.outstanding, hrelieved, Document.baseOut]
      ring
    have hover : doc.outstanding = doc.baseOut + doc.raisedPaise := by
      unfold Document.outstanding Document.baseOut
      ring
    rw [hrelieved, hover]
    constructor
    · rintro ⟨⟨hnonneg, -⟩, hcleared⟩
      refine ⟨?_, hnonneg⟩
      rw [← hleft, hrelieved]
      exact (hcleared hsettled).1
    · rintro ⟨hnone, hnonneg⟩
      refine ⟨⟨hnonneg, by omega⟩, fun _ => ⟨?_, ?_⟩⟩
      · rw [← hrelieved, hleft, hnone]
      · rw [← hrelieved, hpaid]
  · rw [if_neg hall] at hrelieved ⊢
    have hopen : (doc.settle part.relieved part.foreign).Cleared := by
      intro hsettled
      refine absurd ?_ hall
      simp only [Document.settle, hforeign] at hsettled
      unfold Document.foreignOut
      omega
    rw [hrelieved, ← to_base_minor_le_iff hpositive.le (hrate hall)]
    rw [hrelieved] at hopen
    exact ⟨fun h => h.1.2, fun h => ⟨⟨to_base_minor_nonneg hpositive.le (hrate hall) _, h⟩, hopen⟩⟩

/-- A settlement does what it should exactly where it fits. -/
theorem clears_iff_fits (docs : String → Option Document) (side : Side) (call : Settlement) :
    Clears docs side call ↔ Fits docs side call := by
  refine forall_congr' fun parts => forall_congr' fun hprepare => ?_
  have hplan := prepare_ok hprepare
  have hpositive : ∀ a ∈ call.asked, 0 < a.foreign := by
    intro a ha
    simpa using (List.mem_filter.mp ha).2
  have hroom : ∀ part ∈ parts, ∃ doc, docs part.docId = some doc ∧ part.foreign ≤ doc.foreignOut := by
    intro part hpart
    obtain ⟨a, -, hok⟩ := asked_of_planned hplan hpart
    obtain ⟨-, hforeign, doc, hdoc, hfits, -⟩ := plan_ok hok
    exact ⟨doc, hdoc, by rw [hforeign]; exact hfits⟩
  by_cases hdistinct : (parts.map Part.docId).Nodup
  · obtain ⟨hnone, -, hput, hmoments⟩ := put_parts_distinct side hdistinct hroom
    have hsettle : settleForeign side call docs =
        ((putParts side docs parts).1, .ok (call.lines side parts)) := by
      unfold settleForeign
      rw [hprepare]
      dsimp only
      rw [← Prod.mk.eta (p := putParts side docs parts), hnone]
      simp [hdistinct]
    rw [hsettle]
    constructor
    · rintro ⟨-, -, hbounds, hcleared⟩
      refine ⟨(planned_distinct hplan).mp hdistinct, fun a ha doc hdoc => ?_⟩
      obtain ⟨part, hpart, hok⟩ := planned_of_asked hplan ha
      have hfound : docs part.docId = some doc := by simpa [(plan_ok hok).1] using hdoc
      exact (part_clears_iff (hpositive a ha) hok hfound).mp
        ⟨hbounds (doc, part) ((hmoments _).mpr ⟨hpart, hfound⟩),
          hcleared part hpart _ (hput part hpart doc hfound)⟩
    · rintro ⟨-, hfits⟩
      have hpart_clears : ∀ part ∈ parts, ∀ doc, docs part.docId = some doc →
          (0 ≤ part.relieved ∧ part.relieved ≤ doc.outstanding) ∧
            (doc.settle part.relieved part.foreign).Cleared := by
        intro part hpart doc hdoc
        obtain ⟨a, ha, hok⟩ := asked_of_planned hplan hpart
        exact (part_clears_iff (hpositive a ha) hok hdoc).mpr
          (hfits a ha doc (by simpa [(plan_ok hok).1] using hdoc))
      refine ⟨rfl, lines_balance side call parts, fun m hm => ?_, fun part hpart doc hdoc => ?_⟩
      · obtain ⟨hmem, hfound⟩ := (hmoments m).mp hm
        exact (hpart_clears m.2 hmem m.1 hfound).1
      · obtain ⟨before, hbefore, -⟩ := hroom part hpart
        have hafter := hput part hpart before hbefore
        obtain rfl : before.settle part.relieved part.foreign = doc :=
          Option.some.inj (hafter.symm.trans hdoc)
        exact (hpart_clears part hpart before hbefore).2
  · -- the allocations of one document twice are refused
    have hrefused : ∀ lines, (settleForeign side call docs).2 ≠ .ok lines := by
      intro lines
      unfold settleForeign
      rw [hprepare]
      dsimp only
      split
      · simp
      · simp [hdistinct]
    constructor
    · rintro ⟨hrecorded, -⟩
      exact absurd hrecorded (hrefused _)
    · rintro ⟨hasked, -⟩
      exact absurd ((planned_distinct hplan).mpr hasked) hdistinct

end

/-! ### Settlements and notes, one after another -/

/-- What happens to the documents: a receipt or a payment, or notes in rupees. -/
inductive Step where
  | settle (side : Side) (call : Settlement)
  | note (side : Side) (docId : String) (loweredPaise raisedPaise : ℤ) (status : DocumentStatus)

abbrev Books := Side → String → Option Document

def Document.noted (doc : Document) (loweredPaise raisedPaise : ℤ) (status : DocumentStatus) :
    Document :=
  { doc with loweredPaise := loweredPaise, raisedPaise := raisedPaise, status := status }

def Books.after (books : Books) : Step → Books
  | .settle side call => Function.update books side (settleForeign side call (books side)).1
  | .note side docId lowered raised status =>
    Function.update books side (Function.update (books side) docId
      ((books side docId).map (·.noted lowered raised status)))

/-- Every settlement of a run is of a kind. -/
def EverySettlement (P : (String → Option Document) → Side → Settlement → Prop) :
    Books → List Step → Prop
  | _, [] => True
  | books, .settle side call :: steps =>
    P (books side) side call ∧ EverySettlement P (books.after (.settle side call)) steps
  | books, step :: steps => EverySettlement P (books.after step) steps

/-- However receipts, payments and notes follow one another, every settlement clears what it should
exactly where every settlement fits. -/
theorem settlements_clear_iff (books : Books) (steps : List Step) :
    EverySettlement Clears books steps ↔ EverySettlement Fits books steps := by
  induction steps generalizing books with
  | nil => exact Iff.rfl
  | cons step steps ih =>
    cases step with
    | settle side call => exact and_congr (clears_iff_fits _ _ _) (ih _)
    | note side docId lowered raised status => exact ih _

/-- An invoice of a hundred dollars, booked at eighty rupees, with a debit note of five hundred. -/
def machinery : Document where
  status := .issued
  totalPaise := 800000
  paidPaise := 0
  loweredPaise := 0
  raisedPaise := 50000
  txnCurrency := "USD"
  exchangeRate := 80
  txnTotal := 10000
  paidTxn := 0

def hundredDollars : Settlement where
  currency := "USD"
  minor := 2
  rate := 82
  totalForeign := 10000
  tdsPaise := 0
  allocations := [⟨some "INV-1", 10000⟩]
  entryDate := "2026-04-01"
  referenceNo := "RCPT-26-0001"
  cashAccount := "bank"
  controlAccount := "debtors"
  fxAccount := "fx"

def invoiced : Books
  | .receivable, "INV-1" => some machinery
  | _, _ => none

/-- The hundred dollars are received and the invoice is paid, with five hundred rupees to come. -/
theorem machinery_left :
    ((createForeignReceipt hundredDollars (invoiced .receivable)).1 "INV-1").map
        (fun doc => (doc.status, doc.txnTotal - doc.paidTxn, doc.outstanding)) =
      some (.paid, 0, 50000) ∧
      ¬ EverySettlement Clears invoiced [.settle .receivable hundredDollars] := by
  have hleft : ((createForeignReceipt hundredDollars (invoiced .receivable)).1 "INV-1").map
      (fun doc => (doc.status, doc.txnTotal - doc.paidTxn, doc.outstanding)) =
        some (.paid, 0, 50000) := by
    decide +kernel
  refine ⟨hleft, fun h => ?_⟩
  obtain ⟨doc, hdoc, hfigures⟩ := Option.map_eq_some_iff.mp hleft
  have hprepare : hundredDollars.prepare .receivable (invoiced .receivable) =
      .ok [⟨"INV-1", 10000, 800000⟩] := by
    decide +kernel
  obtain ⟨-, -, -, hcleared⟩ := h.1 _ hprepare
  have hzero := hcleared _ List.mem_cons_self doc hdoc
  simp only [Prod.mk.injEq] at hfigures
  have := (hzero (by omega)).1
  omega

end Caflow.Currency
