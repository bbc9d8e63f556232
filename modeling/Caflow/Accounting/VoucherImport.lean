import Caflow.Accounting.SpreadsheetCells
import Caflow.Lib.Dict

namespace Caflow.Accounting.VoucherImport
open IsoDate (Date)
open Dict (fromKeys)
open Text (strip)

inductive Status where
  | new | alreadyRecorded | rejected
  deriving DecidableEq

/-- What a spreadsheet may hand-make, and the entry type of it. -/
def allowedTypes : List (String × String) :=
  [("journal", "Journal"), ("payment", "Payment"), ("receipt", "Receipt"), ("contra", "Contra")]

/-- What it may not, and where it belongs. -/
def refusedTypes : List (String × String) :=
  [("sales", "A sales entry is a document, not a voucher: it carries the GST the " ++
      "return declares. Import it with the sales invoice importer."),
    ("purchase", "A purchase entry is a document, not a voucher: it carries the " ++
      "input credit the return claims. Import it with the purchase bill importer."),
    ("opening", "An opening balance has its own path and its own reconciliation — " ++
      "see the Opening Balances tab.")]

/-- One spreadsheet line, as typed. An amount is nothing where its cell holds something else. -/
structure Leg where
  row : ℤ
  voucherNo : String
  date : String
  voucherType : String
  account : String
  debitPaise : Option ℤ
  creditPaise : Option ℤ
  narration : Option String
  lineNarration : Option String
  deriving DecidableEq

/-- An account of the client's chart. -/
structure Account where
  id : String
  accountCode : Option String
  accountName : Option String
  isActive : Option Bool

structure Line where
  accountId : String
  debitPaise : ℤ
  creditPaise : ℤ
  narration : String

/-- A live entry that carries a voucher number. -/
structure ExistingEntry where
  id : Option String
  entryDate : Option String
  entryType : Option String
  isReversed : Bool
  totalPaise : Option ℤ
  deriving DecidableEq

/-- What is said against a line or a voucher, with what the sentence names. -/
inductive Problem where
  | numberBlank
  | dateBlank (row : ℤ)
  | notADate (row : ℤ) (text : String)
  | datesDiffer (dates : List Date)
  | typeRefused (row : ℤ) (sentence : String)
  | typeUnknown (row : ℤ) (text : String)
  | typesDiffer (types : List (Option String))
  | typeBlank
  | accountBlank (row : ℤ)
  | codeShared (row : ℤ) (text : String)
  | nameShared (row : ℤ) (text : String) (accounts : ℕ)
  | accountUnknown (row : ℤ) (text : String)
  | accountInactive (row : ℤ) (text : String)
  | debitNotAmount (row : ℤ)
  | creditNotAmount (row : ℤ)
  | negative (row : ℤ)
  | bothSides (row : ℤ)
  | noAmount (row : ℤ)
  | tooFewLines
  | unbalanced (debit credit : ℤ)
  | periodClosed (date : Date) (sentence : String)
  | reversed (voucherNo : String)
  | clashes (voucherNo : String) (entry : ExistingEntry) (date : Option Date)
      (entryType : Option String) (debit : ℤ)
  deriving DecidableEq

structure VoucherVerdict where
  voucherNo : String
  rows : List ℤ
  status : Status
  problems : List Problem
  entryDate : Option Date
  entryType : Option String
  narration : String
  lines : List Line
  totalPaise : ℤ
  existingId : Option String

/-- The sort of the types for the sentence that names them compares none with a text. -/
inductive Raised where
  | typeError

section
variable (casefold : String → String) (accounts : List Account)

def Account.code (a : Account) : String := casefold (strip (a.accountCode.getD ""))

def Account.folded (a : Account) : String := foldName casefold (a.accountName.getD "")

def byCode (code : String) : List Account :=
  accounts.filter fun a => a.code casefold ≠ "" ∧ a.code casefold = code

def byName (name : String) : List Account :=
  accounts.filter fun a => a.folded casefold ≠ "" ∧ a.folded casefold = name

/-- The one ledger a cell names, or the reason it names none or several. A code wins over a name. -/
def resolveAccount (row : ℤ) (cell : String) : Except Problem Account :=
  let text := strip cell
  if text = "" then .error (.accountBlank row)
  else
    let coded := byCode casefold accounts (casefold text)
    let named := byName casefold accounts (foldName casefold text)
    if 1 < coded.length then .error (.codeShared row text)
    else if coded = [] ∧ 1 < named.length then .error (.nameShared row text named.length)
    else
      match coded ++ named with
      | [] => .error (.accountUnknown row text)
      | account :: _ =>
        if account.isActive = some false then .error (.accountInactive row text) else .ok account

/-- The entry type that a cell states, which is none where the cell folds to nothing, or why it is not
taken. -/
def normaliseType (row : ℤ) (raw : String) : Except Problem (Option String) :=
  let key := foldName casefold raw
  if key ∈ allowedTypes.map Prod.fst then .ok (allowedTypes.lookup key)
  else if key ∈ refusedTypes.map Prod.fst then
    .error (.typeRefused row ((refusedTypes.lookup key).getD ""))
  else if key = "" then .ok none
  else .error (.typeUnknown row (strip raw))

end

namespace Leg

variable (l : Leg)

def number : String := strip l.voucherNo

def dateProblems : List Problem :=
  let text := strip l.date
  if (parseCellDate text).isSome then []
  else if text = "" then [.dateBlank l.row] else [.notADate l.row text]

/-- What a line's type cell says, where it is not blank. -/
def typeRead (casefold : String → String) : Option (Except Problem (Option String)) :=
  if strip l.voucherType = "" then none
  else some (normaliseType casefold l.row (strip l.voucherType))

def problemOf (read : Except Problem α) : List Problem :=
  match read with
  | .error why => [why]
  | .ok _ => []

/-- A line's amounts, where they are amounts on one side. -/
def counted : Option (ℤ × ℤ) :=
  l.debitPaise.bind fun d => l.creditPaise.bind fun c =>
    if d < 0 ∨ c < 0 ∨ (0 < d ∧ 0 < c) ∨ (d = 0 ∧ c = 0) then none else some (d, c)

def amountProblems : List Problem :=
  (if l.debitPaise = none then [.debitNotAmount l.row] else []) ++
  (if l.creditPaise = none then [.creditNotAmount l.row] else []) ++
  ((l.debitPaise.bind fun d => l.creditPaise.map fun c =>
    if d < 0 ∨ c < 0 then [Problem.negative l.row]
    else if 0 < d ∧ 0 < c then [Problem.bothSides l.row]
    else if d = 0 ∧ c = 0 then [Problem.noAmount l.row] else []).getD [])

end Leg

section
variable (casefold : String → String) (accounts : List Account)
  (existing : String → List ExistingEntry) (periodProblem : Option (Date → Option String))

/-- The days that the lines of a voucher carry. -/
def datesOf (group : List Leg) : List Date :=
  fromKeys (group.filterMap fun l => parseCellDate (strip l.date))

/-- The types that the lines of a voucher state; one that folds to nothing states none. -/
def typesOf (group : List Leg) : List (Option String) :=
  fromKeys (group.filterMap fun l => (l.typeRead casefold).bind Except.toOption)

def linesOf (group : List Leg) : List Line :=
  group.filterMap fun l => l.counted.bind fun amounts =>
    (resolveAccount casefold accounts l.row l.account).toOption.map fun account =>
      ⟨account.id, amounts.1, amounts.2, strip (l.lineNarration.getD "")⟩

def debitOf (group : List Leg) : ℤ := ((group.filterMap Leg.counted).map Prod.fst).sum

def creditOf (group : List Leg) : ℤ := ((group.filterMap Leg.counted).map Prod.snd).sum

/-- The one of a list that has only one. -/
def only (xs : List α) : Option α := if xs.length = 1 then xs.head? else none

/-- What is said against a voucher before the books are looked at. -/
def problemsOf (group : List Leg) : List Problem :=
  group.flatMap Leg.dateProblems ++
  (if 1 < (datesOf group).length then [.datesDiffer (datesOf group)] else []) ++
  group.flatMap (fun l => ((l.typeRead casefold).map Leg.problemOf).getD []) ++
  (if 1 < (typesOf casefold group).length then [.typesDiffer (typesOf casefold group)]
    else if typesOf casefold group = [] ∧ ¬ ∃ l ∈ group, strip l.voucherType ≠ "" then [.typeBlank]
    else []) ++
  group.flatMap (fun l =>
    Leg.problemOf (resolveAccount casefold accounts l.row l.account) ++ l.amountProblems) ++
  (if group.length < 2 then [.tooFewLines]
    else if debitOf group ≠ creditOf group then [.unbalanced (debitOf group) (creditOf group)]
    else []) ++
  (((only (datesOf group)).bind fun d => periodProblem.bind fun ask => (ask d).bind fun why =>
    if why = "" then none else some [Problem.periodClosed d why]).getD [])

/-- An entry on the books under the voucher's number is this voucher. -/
def ExistingEntry.SameAs (e : ExistingEntry) (date : Option Date) (entryType : Option String)
    (debit : ℤ) : Prop :=
  some (String.ofList ((e.entryDate.getD "").toList.take 10)) = date.map Date.text ∧
    e.entryType = entryType ∧ e.totalPaise.getD 0 = debit

instance (e : ExistingEntry) (date : Option Date) (entryType : Option String) (debit : ℤ) :
    Decidable (e.SameAs date entryType debit) :=
  inferInstanceAs (Decidable (_ ∧ _ ∧ _))

/-- The problem an entry under the number is, or none where it is this voucher already. -/
def clashWith (vno : String) (date : Option Date) (entryType : Option String) (debit : ℤ)
    (e : ExistingEntry) : Option Problem :=
  if e.isReversed then some (.reversed vno)
  else if e.SameAs date entryType debit then none
  else some (.clashes vno e date entryType debit)

/-- What one voucher is. -/
def judge (vno : String) (group : List Leg) : VoucherVerdict :=
  let rows := fromKeys (group.map Leg.row)
  let rejected (problems : List Problem) (existingId : Option String) : VoucherVerdict :=
    ⟨vno, rows, .rejected, problems, none, none, "", [], 0, existingId⟩
  if vno = "" then rejected [.numberBlank] none
  else
    let problems := problemsOf casefold accounts periodProblem group
    let date := only (datesOf group)
    let entryType := (only (typesOf casefold group)).join
    let taken (status : Status) (existingId : Option String) : VoucherVerdict :=
      ⟨vno, rows, status, [], date, entryType,
        ((group.map fun l => strip (l.narration.getD "")).find? (· ≠ "")).getD "",
        linesOf casefold accounts group, debitOf group, existingId⟩
    if problems ≠ [] then rejected (fromKeys problems) none
    else
      match existing vno with
      | [] => taken .new none
      | e :: _ =>
        match clashWith vno date entryType (debitOf group) e with
        | some clash => rejected [clash] e.id
        | none => taken .alreadyRecorded e.id

/-- The lines by the voucher number they share, in order of first appearance. -/
def groups (legs : List Leg) : List (String × List Leg) :=
  (fromKeys (legs.map Leg.number)).map fun vno => (vno, legs.filter (·.number = vno))

/-- The types of a voucher cannot be sorted: one states none and another states one. -/
def SortRaises (group : List Leg) : Prop :=
  1 < (typesOf casefold group).length ∧ none ∈ typesOf casefold group

instance (group : List Leg) : Decidable (SortRaises casefold group) :=
  inferInstanceAs (Decidable (_ ∧ _))

/-- What each voucher is, in order of first appearance. -/
def plan (legs : List Leg) : Except Raised (List VoucherVerdict) :=
  if ∃ g ∈ groups legs, g.1 ≠ "" ∧ SortRaises casefold g.2 then .error .typeError
  else .ok ((groups legs).map fun g => judge casefold accounts existing periodProblem g.1 g.2)

end

/-- The entry a voucher is recorded as: one without a type is a journal. -/
def recordOf (newId : String → String) (v : VoucherVerdict) : ExistingEntry where
  id := some (newId v.voucherNo)
  entryDate := v.entryDate.map Date.text
  entryType := some (if v.entryType.getD "" = "" then "Journal" else v.entryType.getD "")
  isReversed := false
  totalPaise := some (v.lines.map Line.debitPaise).sum

/-- The entries by number once the new vouchers are recorded under theirs. -/
def afterRecording (newId : String → String) (verdicts : List VoucherVerdict)
    (existing : String → List ExistingEntry) (vno : String) : List ExistingEntry :=
  existing vno ++
    ((verdicts.filter fun v => v.status = .new ∧ v.voucherNo = vno).map (recordOf newId))

end Caflow.Accounting.VoucherImport
