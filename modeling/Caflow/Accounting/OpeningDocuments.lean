import Caflow.Accounting.SpreadsheetCells
import Caflow.Lib.FirstSeen

namespace Caflow.Accounting.OpeningDocuments
open IsoDate (Date)
open Text (strip)

inductive Kind where
  | receivable | payable

inductive Status where
  | new | alreadyRecorded | rejected
  deriving DecidableEq

/-- What the run-time's tables say of the case of a text. Only the empty text is the empty one in
small letters. -/
structure Casing where
  casefold : String → String
  lower : String → String
  upper : String → String
  lowerBlank : ∀ s, lower s = lower "" → s = ""

/-- One row as the spreadsheet carried it. An amount is nothing where its cell is not one. -/
structure ImportRow where
  row : ℤ
  party : String
  partyGstin : Option String
  documentNo : String
  documentDate : String
  dueDate : Option String
  outstandingPaise : Option ℤ
  notes : Option String

structure Party where
  id : String
  name : Option String
  gstin : Option String

/-- A recorded document of the kind, opening or not. -/
structure Document where
  id : String
  number : Option String
  party : Option String
  isOpening : Bool
  totalPaise : Option ℤ

/-- What is said against a row, with what the sentence names. -/
inductive Problem where
  | gstinShared (gstin : String)
  | gstinUnknown (gstin : String)
  | nameShared (name : String) (parties : ℕ)
  | twoParties (name gstin : String)
  | nameUnknown (name : String)
  | nameRequired
  | documentNotADate (text : String)
  | dueNotADate (text : String)
  | amountUnreadable
  | partyRequired
  | numberRequired
  | dateRequired
  | dueBeforeDocument (due document : Date)
  | notStillOwed
  | repeated (row : ℤ)
  | ordinaryDocument (number : String)
  | otherParty (number partyName : String)
  | otherAmount (number : String) (recorded inFile : ℤ)
  deriving DecidableEq

structure Verdict where
  row : ℤ
  documentNo : String
  status : Status
  problems : List Problem
  partyId : Option String
  partyName : Option String
  documentDate : Option Date
  dueDate : Option Date
  outstandingPaise : ℤ
  notes : Option String
  existingId : Option String

/-- Whether this can be recorded as an opening document. -/
def problemWith (partyId documentNo : String) (documentDate dueDate : Option Date)
    (outstandingPaise : ℤ) : List Problem :=
  (if strip partyId = "" then [.partyRequired] else []) ++
  (if strip documentNo = "" then [.numberRequired] else []) ++
  (if documentDate = none then [.dateRequired] else []) ++
  ((documentDate.bind fun on => dueDate.bind fun due =>
    if due < on then some [Problem.dueBeforeDocument due on] else none).getD []) ++
  (if outstandingPaise ≤ 0 then [.notStillOwed] else [])

/-- What the database calls the same document. -/
def documentKey (casing : Casing) (kind : Kind) (party : Option String) (number : String) :
    Option String × String :=
  match kind with
  | .receivable => (none, strip number)
  | .payable => (party, casing.lower (strip number))

section
variable (casing : Casing) (parties : List Party)

def foldedGstin (gstin : Option String) : String := casing.upper (strip (gstin.getD ""))

def byName (name : String) : List Party :=
  parties.filter fun p => p.id ≠ "" ∧ strip (p.name.getD "") ≠ "" ∧
    foldName casing.casefold (p.name.getD "") = foldName casing.casefold name

def byGstin (gstin : String) : List Party :=
  parties.filter fun p => p.id ≠ "" ∧ foldedGstin casing p.gstin ≠ "" ∧
    foldedGstin casing p.gstin = gstin

/-- What each party is called, by its id. -/
def names : List (String × String) :=
  Dict.fromPairs ((parties.filter (·.id ≠ "")).map fun p =>
    (p.id, if p.name.getD "" = "" then p.id else p.name.getD ""))

/-- The party of the row's GSTIN, where it has one. -/
def resolveGstin (gstin : String) : Except Problem (Option Party) :=
  if gstin = "" then .ok none
  else
    let hits := byGstin casing parties gstin
    if 1 < hits.length then .error (.gstinShared gstin)
    else
      match hits.head? with
      | none => .error (.gstinUnknown gstin)
      | some p => .ok (some p)

/-- The party of the row's name, which the GSTIN's party settles where the name could not. -/
def resolveName (name gstin : String) (byG : Option Party) : Except Problem Party :=
  let hits := byName casing parties name
  if 1 < hits.length then
    match byG with
    | some g => if hits.any (·.id = g.id) then .ok g else .error (.nameShared name hits.length)
    | none => .error (.nameShared name hits.length)
  else
    match hits.head?, byG with
    | some p, some g => if p.id ≠ g.id then .error (.twoParties name gstin) else .ok p
    | some p, none => .ok p
    | none, some g => .ok g
    | none, none => .error (.nameUnknown name)

/-- The one party a row names, or the reason it names none or several. -/
def resolveParty (row : ImportRow) : Except Problem Party :=
  let name := strip row.party
  let gstin := foldedGstin casing row.partyGstin
  match resolveGstin casing parties gstin with
  | .error why => .error why
  | .ok byG =>
    if name ≠ "" then resolveName casing parties name gstin byG
    else
      match byG with
      | some g => .ok g
      | none => .error .nameRequired

end

namespace ImportRow
variable (r : ImportRow)

def number : String := strip r.documentNo

def documentOn : Option Date := parseCellDate r.documentDate

def dueText : String := strip (r.dueDate.getD "")

def dueOn : Option Date := if r.dueText = "" then none else parseCellDate r.dueText

def dateUnreadable : Bool := strip r.documentDate ≠ "" && r.documentOn.isNone

def dateProblems : List Problem :=
  (if r.dateUnreadable then [.documentNotADate (strip r.documentDate)] else []) ++
  (if r.dueText ≠ "" ∧ r.dueOn = none then [.dueNotADate r.dueText] else [])

end ImportRow

/-- The day the rule is asked with where the row's own cannot be read. -/
def standIn : Date := Date.of 2000 1 1

section
variable (casing : Casing) (kind : Kind) (parties : List Party) (existing : List Document)

/-- What is said against a row for what it holds, whatever else is in the file or on the books. -/
def ownProblems (r : ImportRow) : List Problem :=
  let party := resolveParty casing parties r
  (match party with
    | .error why => [why]
    | .ok _ => []) ++
  r.dateProblems ++
  (if r.outstandingPaise = none then [.amountUnreadable] else []) ++
  problemWith (match party with | .ok p => p.id | .error _ => "-") r.number
    (r.documentOn.or (if r.dateUnreadable then some standIn else none)) r.dueOn
    (r.outstandingPaise.getD 1)

def partyId (r : ImportRow) : Option String := (resolveParty casing parties r).toOption.map (·.id)

/-- The document a row is, where nothing is said against the row. -/
def rowKey (r : ImportRow) : Option (Option String × String) :=
  if ownProblems casing parties r = [] ∧ r.number ≠ "" then
    some (documentKey casing kind (partyId casing parties r) r.number)
  else none

/-- The problem a recorded document is for a row, or none where it is the row's document. -/
def clashWith (r : ImportRow) (clash : Document) : Option Problem :=
  if !clash.isOpening then some (.ordinaryDocument r.number)
  else if clash.party ≠ partyId casing parties r then
    some (.otherParty r.number
      ((clash.party.bind (Dict.get (names parties))).getD "another party"))
  else if clash.totalPaise.getD 0 ≠ r.outstandingPaise.getD 0 then
    some (.otherAmount r.number (clash.totalPaise.getD 0) (r.outstandingPaise.getD 0))
  else none

/-- The recorded documents by key; of several the first stays. -/
def onFile : List ((Option String × String) × Document) :=
  existing.map fun d => (documentKey casing kind d.party (d.number.getD ""), d)

def rejected (r : ImportRow) (problems : List Problem) (existingId : Option String) : Verdict :=
  ⟨r.row, r.number, .rejected, problems, none, none, none, none, 0, none, existingId⟩

def taken (r : ImportRow) (status : Status) (existingId : Option String) : Verdict :=
  let pid := partyId casing parties r
  let notes := strip (r.notes.getD "")
  ⟨r.row, r.number, status, [], pid, pid.bind (Dict.get (names parties)), r.documentOn, r.dueOn,
    r.outstandingPaise.getD 0, if notes = "" then none else some notes, existingId⟩

/-- What one row is, the row that had its document before it given. -/
def judge (books : (Option String × String) → Option Document) (r : ImportRow)
    (repeated : Option ℤ) : Verdict :=
  let problems := ownProblems casing parties r ++ (repeated.map Problem.repeated).toList
  if problems ≠ [] then rejected r problems none
  else
    match books (documentKey casing kind (partyId casing parties r) r.number) with
    | none => taken casing parties r .new none
    | some clash =>
      match clashWith casing parties r clash with
      | some why => rejected r [why] (some clash.id)
      | none => taken casing parties r .alreadyRecorded (some clash.id)

/-- What each row is, in the order given. -/
def plan (rows : List ImportRow) : List Verdict :=
  FirstSeen.answers (rowKey casing kind parties) (·.row)
    (judge casing kind parties (Dict.get (onFile casing kind existing))) [] rows

end

/-- A row of the kind's table: a document, what is paid on it and how it stands. -/
structure DocumentRow where
  document : Document
  paidPaise : ℤ
  status : String
  deleted : Bool

/-- Every live document that could share a key with a row in the file: invoices by number, bills by
vendor. -/
def existingForImport (kind : Kind) (numbers partyIds : List String) (rows : List DocumentRow) :
    List Document :=
  (rows.filter fun row => !row.deleted &&
    match kind with
    | .receivable => row.document.number.any (· ∈ numbers)
    | .payable => row.document.party.any (· ∈ partyIds) && row.status ≠ "cancelled").map
    (·.document)

def numbersOf (file : List ImportRow) : List String := (file.map (·.number)).filter (· ≠ "")

def partyIdsOf (parties : List Party) : List String := (parties.map (·.id)).filter (· ≠ "")

/-- The judgement of a file over the books. -/
def planFile (casing : Casing) (kind : Kind) (parties : List Party) (rows : List DocumentRow)
    (file : List ImportRow) : List Verdict :=
  plan casing kind parties (existingForImport kind (numbersOf file) (partyIdsOf parties) rows) file

def openStatus : Kind → String
  | .receivable => "issued"
  | .payable => "received"

/-- The row a new document is written as. -/
def writtenRow (kind : Kind) (newId : Verdict → String) (v : Verdict) : DocumentRow :=
  ⟨⟨newId v, some v.documentNo, v.partyId, true, some v.outstandingPaise⟩, 0, openStatus kind, false⟩

/-- The books once the documents called new are written. -/
def bulkCreate (kind : Kind) (newId : Verdict → String) (verdicts : List Verdict)
    (rows : List DocumentRow) : List DocumentRow :=
  rows ++ (verdicts.filter (·.status = .new)).map (writtenRow kind newId)

end Caflow.Accounting.OpeningDocuments
