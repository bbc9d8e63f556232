import Caflow.Lib.Calendar
import Caflow.Lib.Dict
import Caflow.Lib.RoundUp
import Caflow.Text

namespace Caflow.Gst.Itc04
open Calendar
open IsoDate (monthDays month_days_bounds)

/-- Dates are days of the calendar here, not ordinals. -/
abbrev Day := Calendar.Day

/-- The reasons a challan is issued for. Only job work comes back on the statement. -/
inductive Reason
  | liquidGas | jobWork | notASupply | onApproval | invoiceToFollow | skdCkdOrLots
  deriving DecidableEq

inductive Status
  | draft | issued | receivedBack | cancelled
  deriving DecidableEq

inductive GoodsKind
  | inputs | capitalGoods | mouldsDiesJigsFixturesTools
  deriving DecidableEq

structure Challan where
  id : String
  documentNo : String
  documentDate : Day
  reason : Reason
  status : Status
  goodsKind : Option GoodsKind
  receivedBackOn : Option Day
  consigneeName : String
  consigneeGstin : String
  placeOfSupply : String
  deriving DecidableEq

/-- Quantities are in thousandths, as the columns keep them. -/
structure Line where
  id : String
  challanId : String
  lineOrder : ℤ
  description : String
  quantity : ℤ
  taxableAmountPaise : ℤ
  deriving DecidableEq

/-- A lot that came back, against the line it went out on. -/
structure GoodsReturn where
  id : String
  challanId : String
  challanLineId : String
  returnedOn : Option Day
  quantityReturned : ℕ
  quantityLostOrWasted : ℕ
  jobWorkerChallanNo : Option String
  jobWorkerChallanDate : Option Day
  natureOfJobWork : Option String

inductive Cadence
  | quarterly | halfYearly | annual

structure Window where
  cadence : Cadence
  key : String
  label : String
  start : Day
  finish : Day
  dueDate : Day

def Window.contains (w : Window) (day : Option Day) : Bool :=
  day.any fun d => w.start ≤ d ∧ d ≤ w.finish

/-- A financial year as its label is read: by the year it starts in. -/
structure FinancialYear where
  label : String
  startYear : ℕ
  known : 1900 ≤ startYear ∧ startYear ≤ 2999

/-- The first of a month. -/
def firstOf (year month : ℕ) (hyear : 1 ≤ year) (hmonth : 1 ≤ month ∧ month ≤ 12) : Day :=
  ⟨year, month, 1, hyear, hmonth.1, hmonth.2, IsoDate.one_le_one, IsoDate.month_days_pos _ _⟩

/-- The last of a month. -/
def lastOf (year month : ℕ) (hyear : 1 ≤ year) (hmonth : 1 ≤ month ∧ month ≤ 12) : Day :=
  ⟨year, month, monthDays year month, hyear, hmonth.1, hmonth.2, IsoDate.month_days_pos _ _, le_rfl⟩

theorem FinancialYear.pos (fy : FinancialYear) : 1 ≤ fy.startYear := by
  have := fy.known
  omega

/-- 1 April and the 31 March after it. -/
def fyBounds (fy : FinancialYear) : Day × Day :=
  (firstOf fy.startYear 4 fy.pos (by decide),
    lastOf (fy.startYear + 1) 3 (Nat.le_add_left _ _) (by decide))

theorem january : 1 ≤ 1 ∧ 1 ≤ 12 := ⟨IsoDate.one_le_one, IsoDate.one_le_twelve⟩

/-- The four quarters of a financial year. -/
def fyQuarters (fy : FinancialYear) : List (String × Day × Day) :=
  [("Q1", firstOf fy.startYear 4 fy.pos (by decide), lastOf fy.startYear 6 fy.pos (by decide)),
    ("Q2", firstOf fy.startYear 7 fy.pos (by decide), lastOf fy.startYear 9 fy.pos (by decide)),
    ("Q3", firstOf fy.startYear 10 fy.pos (by decide), lastOf fy.startYear 12 fy.pos (by decide)),
    ("Q4", firstOf (fy.startYear + 1) 1 (Nat.le_add_left _ _) january,
      lastOf (fy.startYear + 1) 3 (Nat.le_add_left _ _) (by decide))]

/-- The 25th of the month after a window's last one. -/
def dueAfter (finish : Day) : Day :=
  if h : finish.month = 12 then
    ⟨finish.year + 1, 1, 25, Nat.le_add_left _ _, IsoDate.one_le_one, IsoDate.one_le_twelve, by decide,
      le_trans (by decide) (month_days_bounds _ _).1⟩
  else
    ⟨finish.year, finish.month + 1, 25, finish.yearPos, Nat.le_add_left _ _,
      Nat.lt_of_le_of_ne finish.monthLe h, by decide, le_trans (by decide) (month_days_bounds _ _).1⟩

def windowOf (cadence : Cadence) (key label : String) (start finish : Day) : Window :=
  ⟨cadence, key, label, start, finish, dueAfter finish⟩

/-- The windows of one reading for a financial year. A half-year is two whole quarters. -/
def windowsFor (fy : FinancialYear) : Cadence → List Window
  | .quarterly => (fyQuarters fy).map fun q =>
      windowOf .quarterly (fy.label ++ ":" ++ q.1) (q.1 ++ " " ++ fy.label) q.2.1 q.2.2
  | .halfYearly =>
      [windowOf .halfYearly (fy.label ++ ":H1") ("April to September " ++ fy.label)
          (firstOf fy.startYear 4 fy.pos (by decide)) (lastOf fy.startYear 9 fy.pos (by decide)),
        windowOf .halfYearly (fy.label ++ ":H2") ("October to March " ++ fy.label)
          (firstOf fy.startYear 10 fy.pos (by decide))
          (lastOf (fy.startYear + 1) 3 (Nat.le_add_left _ _) (by decide))]
  | .annual =>
      [windowOf .annual (fy.label ++ ":FY") ("FY " ++ fy.label) (fyBounds fy).1 (fyBounds fy).2]

/-- A draft has not left and a cancelled challan never moved goods. -/
def isJobWorkSent (ch : Challan) : Bool :=
  ch.reason = .jobWork ∧ (ch.status = .issued ∨ ch.status = .receivedBack)

structure JobWorker where
  name : String
  gstin : Option String
  stateCode : Option String
  identified : Bool

/-- A text that says nothing is no text. -/
def spoken (s : String) : Option String := if s = "" then none else some s

def jobWorker (ch : Challan) : JobWorker :=
  let gstin := spoken (Text.upper (Text.strip ch.consigneeGstin))
  let state := (spoken (Text.strip ch.placeOfSupply)).or
    (gstin.map fun g => String.ofList (g.toList.take 2))
  { name := ch.consigneeName
    gstin
    stateCode := if gstin.isSome then none else state
    identified := gstin.isSome || state.isSome }

/-- A challan's lines, in the order they are printed. -/
def linesOf (lines : List Line) (challanId : String) : List Line :=
  (lines.filter (·.challanId = challanId)).insertionSort fun a b =>
    toLex (a.lineOrder, a.id) ≤ toLex (b.lineOrder, b.id)

def returnsOf (returns : List GoodsReturn) (lineId : String) : List GoodsReturn :=
  returns.filter (·.challanLineId = lineId)

def quantityOf (returns : List GoodsReturn) : ℤ :=
  (returns.map fun r => (r.quantityReturned : ℤ)).sum

def wastedOf (returns : List GoodsReturn) : ℤ :=
  (returns.map fun r => (r.quantityLostOrWasted : ℤ)).sum

/-- A row of Table 5A. Which return it was made from is not in the row. -/
structure Row where
  challanId : String
  challanLineId : String
  jobWorker : JobWorker
  originalChallanNo : String
  originalChallanDate : Day
  jobWorkerChallanNo : Option String
  jobWorkerChallanDate : Option Day
  natureOfJobWork : Option String
  returnedOn : Option Day
  description : String
  quantity : ℤ
  lostOrWastedQuantity : ℤ
  derivedFromWholeChallanReturn : Bool
  ofReturn : Option String

def returnRow (ch : Challan) (ln : Line) (r : GoodsReturn) : Row where
  challanId := ch.id
  challanLineId := ln.id
  jobWorker := jobWorker ch
  originalChallanNo := ch.documentNo
  originalChallanDate := ch.documentDate
  jobWorkerChallanNo := r.jobWorkerChallanNo
  jobWorkerChallanDate := r.jobWorkerChallanDate
  natureOfJobWork := r.natureOfJobWork
  returnedOn := r.returnedOn
  description := ln.description
  quantity := r.quantityReturned
  lostOrWastedQuantity := r.quantityLostOrWasted
  derivedFromWholeChallanReturn := false
  ofReturn := some r.id

def wholeRow (ch : Challan) (ln : Line) (rest : ℤ) : Row where
  challanId := ch.id
  challanLineId := ln.id
  jobWorker := jobWorker ch
  originalChallanNo := ch.documentNo
  originalChallanDate := ch.documentDate
  jobWorkerChallanNo := none
  jobWorkerChallanDate := none
  natureOfJobWork := none
  returnedOn := ch.receivedBackOn
  description := ln.description
  quantity := rest
  lostOrWastedQuantity := 0
  derivedFromWholeChallanReturn := true
  ofReturn := none

/-- An undated return stands behind the dated ones. -/
def dayKey (day : Option Day) : WithTop Day := day

/-- The row of a return whose challan was sent, whose line is known and whose day is in the window. -/
def itemisedRow (chById : List (String × Challan)) (lnById : List (String × Line)) (window : Window)
    (r : GoodsReturn) : Option Row :=
  match Dict.get chById r.challanId, Dict.get lnById r.challanLineId with
  | some ch, some ln => if window.contains r.returnedOn then some (returnRow ch ln r) else none
  | _, _ => none

/-- The rest of a line of a challan marked wholly back. -/
def restRow (returns : List GoodsReturn) (ch : Challan) (ln : Line) : Option Row :=
  let rest := ln.quantity - quantityOf (returnsOf returns ln.id)
  if rest ≤ 0 then none else some (wholeRow ch ln rest)

/-- Goods received back in the window, one row per return, and the rest of a challan marked wholly
back. -/
def table5a (challans : List Challan) (lines : List Line) (returns : List GoodsReturn)
    (window : Window) : List Row :=
  let chById := Dict.fromPairs ((challans.filter (isJobWorkSent ·)).map fun c => (c.id, c))
  let lnById := Dict.fromPairs (lines.map fun l => (l.id, l))
  let sorted := returns.insertionSort fun a b =>
    toLex (dayKey a.returnedOn, a.id) ≤ toLex (dayKey b.returnedOn, b.id)
  let itemised := sorted.filterMap (itemisedRow chById lnById window)
  let whole := chById.flatMap fun c =>
    if window.contains c.2.receivedBackOn then
      (linesOf lines c.1).filterMap (restRow returns c.2)
    else []
  (itemised ++ whole).insertionSort fun a b =>
    toLex (dayKey a.returnedOn, a.originalChallanNo) ≤
      toLex (dayKey b.returnedOn, b.originalChallanNo)

structure BalanceLine where
  challanLineId : String
  description : String
  sent : ℤ
  returned : ℤ
  lostOrWasted : ℤ
  outstanding : ℤ
  taxableValueAtStakePaise : ℤ

structure Balance where
  challanId : String
  challanNo : String
  challanDate : Day
  jobWorker : JobWorker
  goodsKind : Option GoodsKind
  lines : List BalanceLine
  taxableValueAtStakePaise : ℤ

/-- The returns a balance counts: those up to the day, and those without one. -/
def returnsBy (returns : List GoodsReturn) (asAt : Day) : List GoodsReturn :=
  returns.filter fun r => r.returnedOn.all (· ≤ asAt)

def balanceLine (returns : List GoodsReturn) (asAt : Day) (ln : Line) : Option BalanceLine :=
  let got := returnsBy (returnsOf returns ln.id) asAt
  let returned := quantityOf got
  let balance := ln.quantity - returned
  if balance ≤ 0 then none
  else some
    { challanLineId := ln.id
      description := ln.description
      sent := ln.quantity
      returned
      lostOrWasted := wastedOf got
      outstanding := balance
      taxableValueAtStakePaise :=
        if 0 < ln.quantity then RoundUp.ceilDiv (ln.taxableAmountPaise * balance) ln.quantity
        else 0 }

/-- What is still out of a challan. One said to be wholly back is passed over. -/
def balanceOf (lines : List Line) (returns : List GoodsReturn) (asAt : Day) (ch : Challan) :
    Option Balance :=
  if !isJobWorkSent ch || ch.receivedBackOn.isSome || ch.status = .receivedBack then none
  else
    let challanLines := (linesOf lines ch.id).filterMap (balanceLine returns asAt)
    if challanLines = [] then none
    else some
      { challanId := ch.id
        challanNo := ch.documentNo
        challanDate := ch.documentDate
        jobWorker := jobWorker ch
        goodsKind := ch.goodsKind
        lines := challanLines
        taxableValueAtStakePaise := (challanLines.map (·.taxableValueAtStakePaise)).sum }

/-- Per challan line: sent, returned, still outstanding. -/
def balances (challans : List Challan) (lines : List Line) (returns : List GoodsReturn)
    (asAt : Day) : List Balance :=
  (challans.insertionSort fun a b =>
    toLex (a.documentDate, a.documentNo) ≤ toLex (b.documentDate, b.documentNo)).filterMap
      (balanceOf lines returns asAt)

end Caflow.Gst.Itc04
