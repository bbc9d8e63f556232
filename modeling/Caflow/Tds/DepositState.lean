import Caflow.Tds.ChallanMapping
import Caflow.Lib.IsoDate

set_option linter.all false

namespace Caflow.Tds
open Text IsoDate

/-- A deduction of the register. -/
structure RegisterRow where
  id : String
  sectionText : String
  transactionDate : String
  purchaseBillId : String
  purchasePaymentId : String
  tdsPaise : ℤ
  surchargePaise : ℤ
  cessPaise : ℤ

/-- The financial year and the quarter of it. -/
abbrev Period := String × String

/-- A date out of the first ten characters of a text. -/
def asDate (text : String) : Option Date :=
  match (strip text).toList.take 10 with
  | [y₁, y₂, y₃, y₄, '-', m₁, m₂, '-', d₁, d₂] => do
    let year ← readNat [y₁, y₂, y₃, y₄]
    let month ← readNat [m₁, m₂]
    let day ← readNat [d₁, d₂]
    if h : 1 ≤ year ∧ year ≤ 9999 ∧ 1 ≤ month ∧ month ≤ 12 ∧ 1 ≤ day ∧ day ≤ monthDays year month then
      some ⟨year, month, day, h.1, h.2.1, h.2.2.1, h.2.2.2.1, h.2.2.2.2.1, h.2.2.2.2.2⟩
    else none
  | _ => none

def twoDigits (n : ℕ) : String := String.ofList (digits 2 n)

/-- The financial year starts in April. -/
def fyLabelOf (on : Date) : String :=
  let start := if 4 ≤ on.month then on.year else on.year - 1
  toString start ++ "-" ++ twoDigits ((start + 1) % 100)

def quarterOf (on : Date) : String :=
  if 4 ≤ on.month ∧ on.month ≤ 6 then "Q1"
  else if 7 ≤ on.month ∧ on.month ≤ 9 then "Q2"
  else if 10 ≤ on.month ∧ on.month ≤ 12 then "Q3"
  else "Q4"

def periodOf (on : Date) : Period := (fyLabelOf on, quarterOf on)

@[irreducible] def isSalary (sectionText : String) : Bool :=
  upper (String.ofList (sectionText.toList.filter (· ≠ ' '))) ∈ ["192", "SEC192", "S192"]

def isAsciiSpace (c : Char) : Bool := c = ' ' || 9 ≤ c.toNat && c.toNat ≤ 13

def stripAscii (s : String) : String :=
  String.ofList ((s.toList.dropWhile isAsciiSpace).rdropWhile isAsciiSpace)

/-- The bracketed limb at the end dropped, from the first bracket that has something before it. -/
def dropLimb : List Char → List Char
  | [] => []
  | [c] => [c]
  | c :: c' :: rest =>
    if c ≠ '(' ∧ c' = '(' ∧ rest.getLast? = some ')' then [c] else c :: dropLimb (c' :: rest)

def noSection : String := "(NO SECTION)"

@[irreducible] def sectionGroup (sectionText blank : String) : String :=
  let typed := upper (stripAscii sectionText)
  String.ofList (dropLimb (if typed = "" then blank else typed).toList)

def taxOf (r : RegisterRow) : ℤ := r.tdsPaise + r.surchargePaise + r.cessPaise

def nilFloor (r : RegisterRow) : ℤ := max 0 (taxOf r)

/-- What a challan paid of the tax. -/
def Challan.paid (c : Challan) : ℤ := max 0 (c.tdsPaise + c.surchargePaise)

def Challan.period (c : Challan) : Period := (c.financialYear, c.quarter)

section Position
open Tally

structure Position where
  undepositedPaise : ℤ
  notRecordedPaise : ℤ

/-- The quarter and the section a deduction is netted in. -/
def keyOf (r : RegisterRow) : Option (Period × String) :=
  match asDate r.transactionDate with
  | none => none
  | some on =>
    if isSalary r.sectionText then none
    else some (periodOf on, sectionGroup r.sectionText noSection)

def challanKeyOf (c : Challan) : Option (Period × String) :=
  if isSalary c.sectionText then none else some (c.period, sectionGroup c.sectionText "")

def owed (deductions : List RegisterRow) : List ((Period × String) × ℤ) :=
  grouped (deductions.filterMap fun r => (keyOf r).map fun key => (key, nilFloor r))

def paid (challans : List Challan) : List ((Period × String) × ℤ) :=
  grouped (challans.filterMap fun c => (challanKeyOf c).map fun key => (key, c.paid))

/-- The deposit position across one client's deductions, section by section. -/
def position (deductions : List RegisterRow) (challans : List Challan) : Position :=
  let paid := paid challans
  let recorded := paid.map (·.1.1)
  { undepositedPaise := ((owed deductions).map fun p =>
      if p.1.1 ∈ recorded then max 0 (p.2 - (paid.lookup p.1).getD 0) else 0).sum
    notRecordedPaise := ((owed deductions).map fun p => if p.1.1 ∈ recorded then 0 else p.2).sum }

end Position

/-- A deduction as the mapping reads it. -/
def eventOf (r : RegisterRow) : Deduction :=
  { id := r.id
    sectionText := if strip r.sectionText = "" then "(no section)" else strip r.sectionText
    onDate := String.ofList (r.transactionDate.toList.take 10)
    sourceId :=
      if r.purchaseBillId ≠ "" then r.purchaseBillId
      else if r.purchasePaymentId ≠ "" then r.purchasePaymentId
      else r.id
    tdsPaise := taxOf r }

/-- A challan as the mapping reads it: its tax is what left the bank less interest and penalty. -/
def payingChallan (c : Challan) : Challan :=
  { c with tdsPaise := c.tdsPaise + c.surchargePaise }

/-- Which challan of the register paid which of a quarter's deductions. -/
def mappingFromRegister (rows : List RegisterRow) (challans : List Challan) : Mapping :=
  assign ((rows.filter fun r => !isSalary r.sectionText).map eventOf)
    ((challans.filter fun c => !isSalary c.sectionText).map payingChallan)

/-- The parts of a deduction that count as paid, and whether a challan was refused as dated before
the deduction. -/
def datedParts (assignment : Assignment) (deductedOn : Date) : List (ℤ × Date) × Bool :=
  let dated := assignment.parts.filterMap fun part =>
    (asDate part.1.paymentDate).map fun paidOn => (part.2, paidOn)
  (dated.filter (deductedOn ≤ ·.2), dated.any (·.2 < deductedOn))

inductive DepositStatus where
  | deposited
  | part
  | notDeposited
  | notRecorded
  | nothingOwed
  | salary
  | undated
  deriving DecidableEq

structure RowState where
  state : DepositStatus
  taxPaise : ℤ := 0
  depositedPaise : ℤ := 0
  challans : List String := []
  financialYear : String := ""
  quarter : String := ""
  datedBefore : Bool := false
  dueOn : Option Date := none
  overdue : Bool := false
  lateOn : Option Date := none

structure SurplusWarning where
  financialYear : String
  quarter : String
  sectionText : String
  surplusPaise : ℤ
  challanNos : List String

/-- The states in the order they were set; a later one of an id stands. -/
structure Judgement where
  states : List (String × RowState)
  surplus : List SurplusWarning

def Judgement.stateOf (j : Judgement) (id : String) : Option RowState := j.states.reverse.lookup id

/-- A row that is judged without the register, or the quarter whose challans it is held to. -/
inductive Standing where
  | settled (state : RowState)
  | owing (period : Period)

@[irreducible] def standingOf (r : RegisterRow) : Standing :=
  if isSalary r.sectionText then .settled { state := .salary }
  else
    match asDate r.transactionDate with
    | none => .settled { state := .undated, taxPaise := nilFloor r }
    | some on =>
      if nilFloor r ≤ 0 then
        .settled { state := .nothingOwed, financialYear := fyLabelOf on, quarter := quarterOf on }
      else .owing (periodOf on)

/-- The quarter a deduction that owes tax is held to. -/
def periodFor (r : RegisterRow) : Option Period :=
  match standingOf r with
  | .settled _ => none
  | .owing period => some period

def settledStates (deductions : List RegisterRow) : List (String × RowState) :=
  deductions.filterMap fun r =>
    match standingOf r with
    | .settled state => some (r.id, state)
    | .owing _ => none

/-- The deductions of a quarter that owe tax, under the section the card groups them by. -/
def rowsOf (deductions : List RegisterRow) (period : Period) : List RegisterRow :=
  (deductions.filter (periodFor · = some period)).map fun r =>
    { r with sectionText := sectionGroup r.sectionText noSection }

def registerChallans (challans : List Challan) : List Challan :=
  (challans.filter fun c => !isSalary c.sectionText).map fun c =>
    { c with sectionText := sectionGroup c.sectionText "" }

def challansOf (challans : List Challan) (period : Period) : List Challan :=
  (registerChallans challans).filter (·.period = period)

def recorded (challans : List Challan) : List Period := (registerChallans challans).map (·.period)

def owingPeriods (deductions : List RegisterRow) : List Period := deductions.filterMap periodFor

def serialsOf (assignment : Assignment) : List String :=
  if 0 < assignment.depositedPaise then
    (assignment.parts.map fun part => strip part.1.challanNo).filter (· ≠ "")
  else []

/-- A row held to the challans of its quarter. -/
def judgedState (period : Period) (assignment : Assignment) (r : RegisterRow)
    (dueDateOf : Option (Date → Date)) (today : Option Date) : RowState :=
  let state : DepositStatus :=
    if nilFloor r ≤ assignment.depositedPaise then .deposited
    else if 0 < assignment.depositedPaise then .part
    else .notDeposited
  let row : RowState :=
    { state := state, taxPaise := nilFloor r, depositedPaise := assignment.depositedPaise,
      challans := serialsOf assignment, financialYear := period.1, quarter := period.2 }
  match asDate r.transactionDate with
  | none => row
  | some on =>
    let dated := datedParts assignment on
    let row := { row with datedBefore := dated.2 }
    match dueDateOf, today with
    | some dueDateOf, some today =>
      let rowDue := dueDateOf on
      { row with
        dueOn := if state = .deposited then none else some rowDue
        overdue := state ≠ .deposited ∧ rowDue < today
        lateOn := ((dated.1.map Prod.snd).filter (rowDue < ·)).max? }
    | _, _ => row

def surplusWarning (period : Period) : Gap → Option SurplusWarning
  | .deductionsNotDeposited _ _ => none
  | .challanExceedsDeductions sectionKey surplusPaise challanNos => some
    { financialYear := period.1
      quarter := period.2
      sectionText := strip sectionKey
      surplusPaise := surplusPaise
      challanNos := (((challanNos.map strip).filter (· ≠ "")).dedup).insertionSort (· ≤ ·) }

def quarterMapping (deductions : List RegisterRow) (challans : List Challan) (period : Period) :
    Mapping :=
  mappingFromRegister (rowsOf deductions period) (challansOf challans period)

def quarterStates (deductions : List RegisterRow) (challans : List Challan)
    (dueDateOf : Option (Date → Date)) (today : Option Date) (period : Period) :
    List (String × RowState) :=
  (rowsOf deductions period).map fun r =>
    if period ∈ recorded challans then
      (r.id, judgedState period ((quarterMapping deductions challans period).forDeduction r.id) r
        dueDateOf today)
    else
      (r.id, { state := .notRecorded, taxPaise := nilFloor r, financialYear := period.1,
               quarter := period.2 })

def periods (deductions : List RegisterRow) (challans : List Challan) : List Period :=
  (recorded challans ++ owingPeriods deductions).dedup.insertionSort fun a b => toLex a ≤ toLex b

/-- Each deduction's state, from the challans of its own quarter. -/
def judge (deductions : List RegisterRow) (challans : List Challan)
    (dueDateOf : Option (Date → Date)) (today : Option Date) : Judgement :=
  let periods := periods deductions challans
  { states := settledStates deductions ++
      periods.flatMap (quarterStates deductions challans dueDateOf today)
    surplus := (periods.filter (· ∈ recorded challans)).flatMap fun period =>
      (quarterMapping deductions challans period).gaps.filterMap (surplusWarning period) }

end Caflow.Tds
