import Caflow.Text

set_option linter.all false

namespace Caflow.IncomeTax.LossUtilisation
open Text

/-- What writes a use of a loss. `updated` is absent: nothing writes an updated return's use. -/
inductive Kind where
  | manual
  | original
  | revised
  deriving DecidableEq

/-- Which kind stands over which, for the same financial year. -/
def Kind.rank : Kind → ℤ
  | .manual => -1
  | .original => 0
  | .revised => 1

def Kind.text : Kind → String
  | .manual => "manual"
  | .original => "original"
  | .revised => "revised"

def kindOf (text : String) : Option Kind :=
  [Kind.manual, .original, .revised].find? (fun kind => kind.text = text)

/-- One use of a loss, as the record stores it. -/
structure RawEntry where
  financialYear : Option String
  amountPaise : Option ℤ
  returnType : Option String

structure Entry where
  financialYear : String
  amountPaise : ℤ
  returnType : Kind
  deriving DecidableEq

abbrev Entries := List (String × Entry)

/-- The columns of a brought-forward loss that say what is left of it. A use that is not an
object is `none`, and so is a record older than the column. -/
structure LossRow where
  originalAmountPaise : Option ℤ
  utilizedAmountPaise : Option ℤ
  remainingAmountPaise : Option ℤ
  utilisations : Option (List (String × Option RawEntry))

inductive Refusal where
  | superseded (filing : String)
  | heldByReturn (filing : String)
  | moreThanTheRecordCanTake (roomPaise : ℤ)
  | valueError (message : String)
  | noSuchEntry (entryId : String)
  deriving DecidableEq

def Refusal.message : Refusal → String
  | .superseded filing =>
    "the use for this year is held by return " ++ filing ++ ", which stands over this one"
  | .heldByReturn filing =>
    "the use for this year is held by return " ++ filing ++
      ", so it is corrected on that return and not by hand"
  | .moreThanTheRecordCanTake _ => "the record could take only a smaller amount for this year"
  | .valueError message => message
  | .noSuchEntry entryId => entryId

/-- A stored count of paise; a missing one is 0, and so is a negative one. -/
def paise (value : Option ℤ) : ℤ := max 0 (value.getD 0)

/-- A use as it is read. One that names no year is not a use. -/
def RawEntry.read (raw : RawEntry) : Option Entry :=
  let fy := strip (raw.financialYear.getD "")
  if fy = "" then none
  else
    -- an empty text reads as an original as well: it is no kind
    let kind := lower (strip (raw.returnType.getD "original"))
    some ⟨fy, paise raw.amountPaise, (kindOf kind).getD .original⟩

def entriesOf (row : LossRow) : Entries :=
  (row.utilisations.getD []).filterMap fun x =>
    x.2.bind fun raw => raw.read.map fun entry => (x.1, entry)

def used (entries : Entries) : ℤ := (entries.map (·.2.amountPaise)).sum

/-- What was recorded with no year and no filing behind it. -/
def baselinePaise (row : LossRow) : ℤ := max 0 (paise row.utilizedAmountPaise - used (entriesOf row))

def usedInYearPaise (row : LossRow) (financialYear : String) : ℤ :=
  used ((entriesOf row).filter (fun x => x.2.financialYear = strip financialYear))

/-- What a computation for a year may set off: the loss less the uses of other years. -/
def availableForYearPaise (row : LossRow) (financialYear : String) : ℤ :=
  min (paise row.originalAmountPaise)
    (paise row.remainingAmountPaise + usedInYearPaise row financialYear)

/-- The calendar year a label starts in, for a label that begins with four digits. -/
def yearStart (financialYear : String) : Option ℕ :=
  let head := (strip financialYear).toList.take 4
  if head.length = 4 then readNat head else none

/-- The columns a step gives back to be stored. -/
structure Columns where
  utilisations : Entries
  utilizedAmountPaise : ℤ
  remainingAmountPaise : ℤ

/-- The columns once the return of a filing, of a kind, for a year, has used an amount. -/
def afterFiling (row : LossRow) (filingId financialYear : String) (usedPaise : Option ℤ)
    (returnType : String) : Except Refusal Columns :=
  let fy := strip financialYear
  let kind := (kindOf returnType).getD .original
  let original := paise row.originalAmountPaise
  let standsOver (x : String × Entry) : Bool :=
    x.1 ≠ filingId ∧ x.2.financialYear = fy ∧ kind.rank < x.2.returnType.rank
  match (entriesOf row).find? standsOver with
  | some (other, _) => .error (.superseded other)
  | none =>
    let baseline := baselinePaise row
    let ofOtherYears := (entriesOf row).filter fun x => x.2.financialYear ≠ fy ∨ x.1 = filingId
    let entries := ofOtherYears.filter fun x => x.1 ≠ filingId
    let room := max 0 (original - baseline - used entries)
    let use := min (paise usedPaise) room
    -- a revised return that used nothing keeps an entry: it holds the year against the original
    let entries :=
      if use > 0 ∨ kind = .revised then entries ++ [(filingId, ⟨fy, use, kind⟩)] else entries
    let utilized := baseline + used entries
    .ok ⟨entries, utilized, max 0 (original - utilized)⟩

def totals (row : LossRow) (entries : Entries) : Columns :=
  let original := paise row.originalAmountPaise
  let utilized := baselinePaise row + used entries
  ⟨entries, utilized, max 0 (original - utilized)⟩

/-- The key of the hand entry for a year: recording the year again sets it. -/
def manualEntryId (financialYear : String) : String := "manual:" ++ strip financialYear

def roomForManualPaise (row : LossRow) (financialYear : String) : ℤ :=
  let key := manualEntryId financialYear
  let others := used ((entriesOf row).filter fun x => x.1 ≠ key)
  max 0 (paise row.originalAmountPaise - baselinePaise row - others)

/-- The columns once a person has recorded that a year used an amount. -/
def recordByHand (row : LossRow) (financialYear : String) (amountPaise : Option ℤ) :
    Except Refusal Columns :=
  let fy := strip financialYear
  if yearStart fy = none then .error (.valueError "that is not a financial year")
  else
    let heldByReturn (x : String × Entry) : Bool :=
      x.2.financialYear = fy ∧ x.2.returnType ≠ .manual
    match (entriesOf row).find? heldByReturn with
    | some (other, _) => .error (.heldByReturn other)
    | none =>
      let use := paise amountPaise
      let room := roomForManualPaise row fy
      if use > room then .error (.moreThanTheRecordCanTake room)
      else
        let key := manualEntryId fy
        let entries := (entriesOf row).filter fun x => x.1 ≠ key
        .ok (totals row (if use > 0 then entries ++ [(key, ⟨fy, use, .manual⟩)] else entries))

/-- The columns once an entry is taken off the record. -/
def takeBack (row : LossRow) (entryId : String) : Except Refusal Columns :=
  if ∀ x ∈ entriesOf row, x.1 ≠ entryId then .error (.noSuchEntry entryId)
  else .ok (totals row ((entriesOf row).filter fun x => x.1 ≠ entryId))

def Entry.raw (entry : Entry) : RawEntry :=
  ⟨some entry.financialYear, some entry.amountPaise, some entry.returnType.text⟩

/-- The three columns are written together over the record. -/
def LossRow.store (row : LossRow) (columns : Columns) : LossRow where
  originalAmountPaise := row.originalAmountPaise
  utilizedAmountPaise := some columns.utilizedAmountPaise
  remainingAmountPaise := some columns.remainingAmountPaise
  utilisations := some (columns.utilisations.map fun x => (x.1, some x.2.raw))

/-- One change of a loss record. -/
inductive Step where
  | filed (filingId financialYear : String) (usedPaise : Option ℤ) (returnType : String)
  | byHand (financialYear : String) (amountPaise : Option ℤ)
  | takenBack (entryId : String)

def Step.columns (row : LossRow) : Step → Except Refusal Columns
  | .filed filingId financialYear usedPaise returnType =>
    afterFiling row filingId financialYear usedPaise returnType
  | .byHand financialYear amountPaise => recordByHand row financialYear amountPaise
  | .takenBack entryId => takeBack row entryId

def step (row : LossRow) (s : Step) : Except Refusal LossRow := do
  let columns ← s.columns row
  return row.store columns

def run (row : LossRow) (steps : List Step) : Except Refusal LossRow := steps.foldlM step row

end Caflow.IncomeTax.LossUtilisation
