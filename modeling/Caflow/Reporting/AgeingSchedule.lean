import Caflow.Lib.Calendar
import Caflow.Lib.Dict
import Caflow.Lib.SortByKey

namespace Caflow.Reporting.AgeingSchedule
open Calendar Dict Tally

inductive Bucket where
  | notDue
  | lt6m
  | m6y1
  | lty1
  | y1y2
  | y2y3
  | gty3
  deriving DecidableEq

/-- The prescribed rows: the first four of the receivables, the others of the payables. -/
inductive RowKey where
  | undisputedGood
  | undisputedDoubtful
  | disputedGood
  | disputedDoubtful
  | msme
  | others
  | disputedMsme
  | disputedOthers
  deriving DecidableEq

inductive MsmeStatus where
  | micro
  | small
  | medium
  | notRegistered
  deriving DecidableEq

inductive Side where
  | receivable
  | payable
  deriving DecidableEq

inductive DocStatus where
  | draft
  | issued
  | received
  | partiallyPaid
  | paid
  | cancelled
  deriving DecidableEq

/-- A row of `client_sales_invoices`. -/
structure Invoice where
  firmId : String
  clientId : String
  deleted : Bool
  status : DocStatus
  invoiceDate : Day
  dueDate : Option Day
  outstandingPaise : ℤ
  isDisputed : Bool
  consideredDoubtful : Bool

/-- A row of `purchase_bills`. -/
structure Bill where
  firmId : String
  clientId : String
  deleted : Bool
  status : DocStatus
  billDate : Day
  dueDate : Option Day
  outstandingPaise : ℤ
  isDisputed : Bool
  vendorId : String

structure Vendor where
  id : String
  firmId : String
  clientId : String
  name : String
  msmeStatus : Option MsmeStatus

/-- A row of `chart_of_accounts`; one of no client is the whole firm's. -/
structure Account where
  id : String
  firmId : String
  clientId : Option String
  accountCode : String
  accountName : String
  unbilledDuesSide : Option Side

/-- A row of `journal_lines` with its entry's. -/
structure Line where
  accountId : String
  firmId : String
  clientId : String
  isPosted : Bool
  deleted : Bool
  entryDate : Day
  debitPaise : ℤ
  creditPaise : ℤ

/-- A row of `schedule_iii_unbilled_reviews`. -/
structure Review where
  firmId : String
  clientId : String
  reviewedOn : Day

/-- The tables a schedule is drawn from, with their primary keys. -/
structure Tables where
  invoices : List Invoice
  bills : List Bill
  vendors : List Vendor
  accounts : List Account
  lines : List Line
  reviews : List Review
  vendorKey : (vendors.map Vendor.id).Nodup
  accountKey : (accounts.map Account.id).Nodup
  reviewKey : (reviews.map fun r => (r.firmId, r.clientId)).Nodup

/-- An open sales invoice. -/
structure Receivable where
  outstandingPaise : ℤ
  refDate : Option Day
  disputed : Bool
  doubtful : Bool

/-- An open purchase bill, with what its vendor is classified as. -/
structure Payable where
  outstandingPaise : ℤ
  refDate : Option Day
  disputed : Bool
  msmeStatus : Option MsmeStatus
  vendorId : String
  vendorName : Option String

structure UnbilledAccount where
  accountId : String
  accountCode : String
  accountName : String
  side : Side

structure PostingLine where
  accountId : String
  entryDate : Day
  debitPaise : ℤ
  creditPaise : ℤ

structure AccountBalance where
  accountId : String
  accountCode : String
  accountName : String
  balancePaise : ℤ

structure VendorBalance where
  vendorId : String
  vendorName : String
  outstandingPaise : ℤ

structure AgeingRow where
  key : RowKey
  label : String
  amounts : Bucket → ℤ
  totalPaise : ℤ

/-- One of the two tables, with the unbilled dues beside it. -/
structure AgeingTable where
  title : String
  buckets : List (Bucket × String × Bool)
  rows : List AgeingRow
  columnTotals : Bucket → ℤ
  totalPaise : ℤ
  unbilledDuesPaise : Option ℤ
  unbilledAccounts : List AccountBalance

structure Schedule where
  asOf : Day
  unbilledReviewedOn : Option Day
  receivables : AgeingTable
  payables : AgeingTable
  unclassifiedPaise : ℤ
  unclassifiedVendors : List VendorBalance
  gaps : List (String × String)

def receivableBuckets : List (Bucket × String × Bool) :=
  [(.notDue, "Not due", false), (.lt6m, "Less than 6 months", true),
    (.m6y1, "6 months - 1 year", true), (.y1y2, "1-2 years", true), (.y2y3, "2-3 years", true),
    (.gty3, "More than 3 years", true)]

def payableBuckets : List (Bucket × String × Bool) :=
  [(.notDue, "Not due", false), (.lty1, "Less than 1 year", true), (.y1y2, "1-2 years", true),
    (.y2y3, "2-3 years", true), (.gty3, "More than 3 years", true)]

def receivableRows : List (RowKey × String) :=
  [(.undisputedGood, "(i) Undisputed Trade receivables – considered good"),
    (.undisputedDoubtful, "(ii) Undisputed Trade Receivables – considered doubtful"),
    (.disputedGood, "(iii) Disputed Trade Receivables – considered good"),
    (.disputedDoubtful, "(iv) Disputed Trade Receivables – considered doubtful")]

def payableRows : List (RowKey × String) :=
  [(.msme, "(i) MSME"), (.others, "(ii) Others"), (.disputedMsme, "(iii) Disputed dues – MSME"),
    (.disputedOthers, "(iv) Disputed dues – Others")]

def gapUnbilledNotReviewed : String × String :=
  ("unbilled_dues_not_reviewed",
    "Schedule III requires unbilled dues to be disclosed separately under both ageing " ++
      "schedules, and nobody has yet been through this client's chart of accounts to say " ++
      "which accounts hold them. No figure is shown, because a zero would claim there are " ++
      "none rather than that nobody has looked. Mark the accrued-income and " ++
      "accrued-liability accounts, then record the review — if there genuinely are none, " ++
      "recording the review discloses a nil that somebody has affirmed.")

def gapUnbilledWrongSign : String × String :=
  ("unbilled_account_in_contra_balance",
    "An account marked as holding unbilled dues has a balance on the wrong side — " ++
      "accrued income in credit, or an accrued liability in debit. The figure below " ++
      "includes it at its real (negative) balance rather than hiding it, but a contra " ++
      "balance on an accrual account is usually a reversal that was posted twice or an " ++
      "accrual that was never released.")

def gapUnclassified : String × String :=
  ("vendors_unclassified",
    "One or more vendors with an open bill have no MSMED classification, so their balances " ++
      "are excluded from both the MSME and the Others rows. Classify them before signing the " ++
      "note: IT Act s.43B(h) makes the micro/small distinction change taxable income, not " ++
      "just presentation.")

def gapAsAt : String × String :=
  ("as_at_is_current_balance",
    "Amounts are each document's balance outstanding TODAY, aged against the requested " ++
      "date. A document settled between that date and today is not included, so the " ++
      "schedule understates the position as at that date. Run it at the reporting date for " ++
      "an exact figure.")

/-- A day less so many months, or the last of that month; no day is before the first year. -/
def minusMonths (d : Day) (months : ℕ) : Day :=
  .of ((d.monthIndex - months) / 12) ((d.monthIndex - months) % 12 + 1) d.day

/-- The first cutoff that the reference is strictly later than. -/
def bucket (ref : Option Day) (asOf : Day) (cutoffs : List (ℕ × Bucket)) (oldest undated : Bucket) :
    Bucket :=
  match ref with
  | none => undated
  | some ref =>
    if asOf < ref then .notDue
    else ((cutoffs.find? fun c => minusMonths asOf c.1 < ref).map Prod.snd).getD oldest

def arCutoffs : List (ℕ × Bucket) := [(6, .lt6m), (12, .m6y1), (24, .y1y2), (36, .y2y3)]

def apCutoffs : List (ℕ × Bucket) := [(12, .lty1), (24, .y1y2), (36, .y2y3)]

def receivableBucket (ref : Option Day) (asOf : Day) : Bucket :=
  bucket ref asOf arCutoffs .gty3 .lt6m

def payableBucket (ref : Option Day) (asOf : Day) : Bucket :=
  bucket ref asOf apCutoffs .gty3 .lty1

def receivableRowKey (disputed doubtful : Bool) : RowKey :=
  if disputed then if doubtful then .disputedDoubtful else .disputedGood
  else if doubtful then .undisputedDoubtful else .undisputedGood

/-- None where the vendor is unclassified. -/
def payableRowKey (disputed : Bool) (msmeStatus : Option MsmeStatus) : Option RowKey :=
  msmeStatus.map fun status =>
    let isMsme : Bool := status = .micro ∨ status = .small
    if disputed then if isMsme then .disputedMsme else .disputedOthers
    else if isMsme then .msme else .others

def isDead (status : DocStatus) : Bool := status = .draft ∨ status = .cancelled

def fetchReceivables (t : Tables) (firmId clientId : String) (asOf : Day) : List Receivable :=
  (t.invoices.filter fun r => r.firmId = firmId ∧ r.clientId = clientId ∧ r.deleted = false ∧
    ¬ isDead r.status ∧ 0 < r.outstandingPaise).filterMap fun r =>
      if asOf < r.invoiceDate then none
      else some ⟨r.outstandingPaise, r.dueDate.or (some r.invoiceDate), r.isDisputed,
        r.consideredDoubtful⟩

def fetchPayables (t : Tables) (firmId clientId : String) (asOf : Day) : List Payable :=
  let vendors := fromPairs ((t.vendors.filter fun v => v.firmId = firmId ∧
    v.clientId = clientId).map fun v => (v.id, v))
  (t.bills.filter fun b => b.firmId = firmId ∧ b.clientId = clientId ∧ b.deleted = false ∧
    ¬ isDead b.status ∧ 0 < b.outstandingPaise).filterMap fun b =>
      if asOf < b.billDate then none
      else
        let v := get vendors b.vendorId
        some ⟨b.outstandingPaise, b.dueDate.or (some b.billDate), b.isDisputed,
          v.bind Vendor.msmeStatus, b.vendorId, v.map Vendor.name⟩

def fetchMarked (t : Tables) (firmId clientId : String) : List UnbilledAccount :=
  (t.accounts.filter fun a => a.firmId = firmId ∧
    (a.clientId = some clientId ∨ a.clientId = none)).filterMap fun a =>
      a.unbilledDuesSide.map fun side => ⟨a.id, a.accountCode, a.accountName, side⟩

/-- The lines posted on the marked accounts, where there are any. -/
def fetchLines (t : Tables) (firmId clientId : String) (asOf : Day)
    (marked : List UnbilledAccount) : List PostingLine :=
  (t.lines.filter fun l => l.firmId = firmId ∧ l.clientId = clientId ∧ l.isPosted = true ∧
    l.deleted = false ∧ l.entryDate ≤ asOf ∧ l.accountId ∈ marked.map (·.accountId)).map fun l =>
      ⟨l.accountId, l.entryDate, l.debitPaise, l.creditPaise⟩

def fetchReview (t : Tables) (firmId clientId : String) : Option Day :=
  (t.reviews.find? fun r => r.firmId = firmId ∧ r.clientId = clientId).map Review.reviewedOn

/-- Accrued income reads debit less credit, an accrued liability credit less debit. -/
def signed (side : Side) (debitPaise creditPaise : ℤ) : ℤ :=
  match side with
  | .receivable => debitPaise - creditPaise
  | .payable => creditPaise - debitPaise

abbrev AccountBalance.order (a : AccountBalance) : ℤ ×ₗ String :=
  toLex (-a.balancePaise, a.accountCode)

abbrev VendorBalance.order (v : VendorBalance) : ℤ ×ₗ String :=
  toLex (-v.outstandingPaise, v.vendorName)

/-- Each marked account's balance on a day; texts are compared as their bytes are. -/
def unbilledComposition (accounts : List UnbilledAccount) (lines : List PostingLine) (asOf : Day)
    (side : Side) : List AccountBalance :=
  let byAccount := fromPairs (accounts.map fun a => (a.accountId, a))
  let totals := grouped (lines.filterMap fun l =>
    (get byAccount l.accountId).bind fun a =>
      if asOf < l.entryDate then none
      else some (a.accountId, signed a.side l.debitPaise l.creditPaise))
  ((byAccount.map Prod.snd).filter fun a => a.side = side).map (fun a =>
    ⟨a.accountId, a.accountCode, a.accountName, (get totals a.accountId).getD 0⟩)
  |>.insertionSort fun a b => a.order ≤ b.order

def table (title : String) (rows : List (RowKey × String)) (buckets : List (Bucket × String × Bool))
    (tallies : List ((RowKey × Bucket) × ℤ)) (unbilled : Option (List AccountBalance)) :
    AgeingTable :=
  let outRows := rows.map fun r =>
    let amounts := fun b => (get tallies (r.1, b)).getD 0
    AgeingRow.mk r.1 r.2 amounts (buckets.map fun b => amounts b.1).sum
  { title, buckets
    rows := outRows
    columnTotals := fun b => (outRows.map fun r => r.amounts b).sum
    totalPaise := (outRows.map AgeingRow.totalPaise).sum
    unbilledDuesPaise := unbilled.map fun accounts => (accounts.map AccountBalance.balancePaise).sum
    unbilledAccounts := unbilled.getD [] }

/-- What each row and bucket is given. -/
def arTallies (receivables : List Receivable) (asOf : Day) : List ((RowKey × Bucket) × ℤ) :=
  grouped ((receivables.filter fun r => 0 < r.outstandingPaise).map fun r =>
    ((receivableRowKey r.disputed r.doubtful, receivableBucket r.refDate asOf),
      r.outstandingPaise))

def apTallies (payables : List Payable) (asOf : Day) : List ((RowKey × Bucket) × ℤ) :=
  grouped ((payables.filter fun p => 0 < p.outstandingPaise).filterMap fun p =>
    (payableRowKey p.disputed p.msmeStatus).map fun row =>
      ((row, payableBucket p.refDate asOf), p.outstandingPaise))

/-- The name a vendor is listed under. -/
def listedName (name : Option String) : String :=
  if name.getD "" = "" then "(vendor not found)" else name.getD ""

def unclassified (payables : List Payable) : List ((String × String) × ℤ) :=
  grouped ((payables.filter fun p => 0 < p.outstandingPaise ∧
    payableRowKey p.disputed p.msmeStatus = none).map fun p =>
      ((p.vendorId, listedName p.vendorName), p.outstandingPaise))

def build (receivables : List Receivable) (payables : List Payable) (asOf today : Day)
    (accounts : List UnbilledAccount) (lines : List PostingLine) (reviewedOn : Option Day) :
    Schedule :=
  let composition := unbilledComposition accounts lines asOf
  let reviewed := reviewedOn.isSome
  let missing := unclassified payables
  { asOf
    unbilledReviewedOn := reviewedOn
    receivables := table "Trade Receivables ageing schedule" receivableRows receivableBuckets
      (arTallies receivables asOf) (if reviewed then some (composition .receivable) else none)
    payables := table "Trade Payables ageing schedule" payableRows payableBuckets
      (apTallies payables asOf) (if reviewed then some (composition .payable) else none)
    unclassifiedPaise := (missing.map Prod.snd).sum
    unclassifiedVendors := (missing.map fun u => VendorBalance.mk u.1.1 u.1.2 u.2).insertionSort
      fun a b => a.order ≤ b.order
    gaps :=
      (if !reviewed then [gapUnbilledNotReviewed]
      else if (composition .receivable ++ composition .payable).any (·.balancePaise < 0) then
        [gapUnbilledWrongSign]
      else []) ++
      (if missing.isEmpty then [] else [gapUnclassified]) ++
      (if asOf < today then [gapAsAt] else []) }

/-- The schedule as it is drawn without the database's own function. -/
def schedule (t : Tables) (firmId clientId : String) (asOf today : Day) : Schedule :=
  let marked := fetchMarked t firmId clientId
  build (fetchReceivables t firmId clientId asOf) (fetchPayables t firmId clientId asOf) asOf today
    marked (fetchLines t firmId clientId asOf marked) (fetchReview t firmId clientId)

/-- `LEFT JOIN`: a row with each row it is joined to, or with none. -/
def leftJoin (rows : List α) (others : List β) (on : α → β → Bool) : List (α × Option β) :=
  rows.flatMap fun a =>
    if (others.filter (on a)).isEmpty then [(a, none)]
    else (others.filter (on a)).map fun b => (a, some b)

namespace Sql

/-- The receivables with their rows and buckets: the CTEs `ar` and `ar_b`. -/
def arB (t : Tables) (firm client : String) (asOf : Day) : List ((RowKey × Bucket) × ℤ) :=
  (t.invoices.filter fun i => i.firmId = firm ∧ i.clientId = client ∧ i.deleted = false ∧
    ¬ (i.status = .draft ∨ i.status = .cancelled) ∧ 0 < i.outstandingPaise ∧
    i.invoiceDate ≤ asOf).map fun i =>
      let ref := i.dueDate.getD i.invoiceDate
      let row : RowKey :=
        if i.isDisputed ∧ i.consideredDoubtful then .disputedDoubtful
        else if i.isDisputed then .disputedGood
        else if i.consideredDoubtful then .undisputedDoubtful
        else .undisputedGood
      let bucket : Bucket :=
        if asOf < ref then .notDue
        else if minusMonths asOf 6 < ref then .lt6m
        else if minusMonths asOf 12 < ref then .m6y1
        else if minusMonths asOf 24 < ref then .y1y2
        else if minusMonths asOf 36 < ref then .y2y3
        else .gty3
      ((row, bucket), i.outstandingPaise)

/-- A row of the CTE `ap_b`. -/
structure ApRow where
  amt : ℤ
  vendorId : String
  vendorName : Option String
  rowKey : Option RowKey
  bucket : Bucket

def apB (t : Tables) (firm client : String) (asOf : Day) : List ApRow :=
  let joined := leftJoin t.bills t.vendors fun b v =>
    v.id = b.vendorId ∧ v.firmId = firm ∧ v.clientId = client
  (joined.filter fun j => j.1.firmId = firm ∧ j.1.clientId = client ∧ j.1.deleted = false ∧
    ¬ (j.1.status = .draft ∨ j.1.status = .cancelled) ∧ 0 < j.1.outstandingPaise ∧
    j.1.billDate ≤ asOf).map fun j =>
      let ref := j.1.dueDate.getD j.1.billDate
      let msme := j.2.bind Vendor.msmeStatus
      { amt := j.1.outstandingPaise
        vendorId := j.1.vendorId
        vendorName := j.2.map Vendor.name
        rowKey :=
          if msme = none then none
          else if j.1.isDisputed ∧ (msme = some .micro ∨ msme = some .small) then some .disputedMsme
          else if j.1.isDisputed then some .disputedOthers
          else if msme = some .micro ∨ msme = some .small then some .msme
          else some .others
        bucket :=
          if asOf < ref then .notDue
          else if minusMonths asOf 12 < ref then .lty1
          else if minusMonths asOf 24 < ref then .y1y2
          else if minusMonths asOf 36 < ref then .y2y3
          else .gty3 }

def apAgg (rows : List ApRow) : List ((RowKey × Bucket) × ℤ) :=
  grouped (rows.filterMap fun a => a.rowKey.map fun row => ((row, a.bucket), a.amt))

/-- The prescribed rows, each joined to the groups of its own. -/
def tableRows (rows : List (RowKey × String)) (agg : List ((RowKey × Bucket) × ℤ)) :
    List AgeingRow :=
  rows.map fun r =>
    { key := r.1
      label := r.2
      amounts := fun b => ((agg.filter fun g => g.1 = (r.1, b)).map Prod.snd).sum
      totalPaise := ((agg.filter fun g => g.1.1 = r.1).map Prod.snd).sum }

/-- The marked accounts with their sides and balances: the CTE `unbilled_bal`. -/
def unbilledBal (t : Tables) (firm client : String) (asOf : Day) : List (Side × AccountBalance) :=
  (t.accounts.filter fun a => a.firmId = firm ∧
    (a.clientId = some client ∨ a.clientId = none)).filterMap fun a =>
      a.unbilledDuesSide.map fun side =>
        (side, ⟨a.id, a.accountCode, a.accountName,
          ((t.lines.filter fun l => l.accountId = a.id ∧ l.firmId = firm ∧ l.clientId = client ∧
            l.isPosted = true ∧ l.deleted = false ∧ l.entryDate ≤ asOf).map fun l =>
              if side = .receivable then l.debitPaise - l.creditPaise
              else l.creditPaise - l.debitPaise).sum⟩)

def unclassified (rows : List ApRow) : List VendorBalance :=
  (grouped ((rows.filter fun a => a.rowKey = none).map fun a =>
    ((a.vendorId, a.vendorName), a.amt))).map fun g =>
      ⟨g.1.1, g.1.2.getD "(vendor not found)", g.2⟩

def table (title : String) (buckets : List (Bucket × String × Bool)) (rows : List AgeingRow)
    (reviewed : Bool) (balances : List AccountBalance) : AgeingTable where
  title := title
  buckets := buckets
  rows := rows
  columnTotals := fun b => (rows.map fun r => r.amounts b).sum
  totalPaise := (rows.map AgeingRow.totalPaise).sum
  unbilledDuesPaise :=
    if reviewed then some (balances.map AccountBalance.balancePaise).sum else none
  unbilledAccounts :=
    if reviewed then balances.insertionSort fun a b => a.order ≤ b.order else []

def gapUnbilledNotReviewed : String × String :=
  ("unbilled_dues_not_reviewed",
    "Schedule III requires unbilled dues to be disclosed separately under both ageing " ++
      "schedules, and nobody has yet been through this client's chart of accounts to say " ++
      "which accounts hold them. No figure is shown, because a zero would claim there are " ++
      "none rather than that nobody has looked. Mark the accrued-income and " ++
      "accrued-liability accounts, then record the review — if there genuinely are none, " ++
      "recording the review discloses a nil that somebody has affirmed.")

def gapUnbilledWrongSign : String × String :=
  ("unbilled_account_in_contra_balance",
    "An account marked as holding unbilled dues has a balance on the wrong side — " ++
      "accrued income in credit, or an accrued liability in debit. The figure below " ++
      "includes it at its real (negative) balance rather than hiding it, but a contra " ++
      "balance on an accrual account is usually a reversal that was posted twice or an " ++
      "accrual that was never released.")

def gapUnclassified : String × String :=
  ("vendors_unclassified",
    "One or more vendors with an open bill have no MSMED classification, so their balances " ++
      "are excluded from both the MSME and the Others rows. Classify them before signing the " ++
      "note: IT Act s.43B(h) makes the micro/small distinction change taxable income, not " ++
      "just presentation.")

def gapAsAt : String × String :=
  ("as_at_is_current_balance",
    "Amounts are each document's balance outstanding TODAY, aged against the requested " ++
      "date. A document settled between that date and today is not included, so the " ++
      "schedule understates the position as at that date. Run it at the reporting date for " ++
      "an exact figure.")

/-- `public.schedule_iii_ageing`. -/
def scheduleIiiAgeing (t : Tables) (firm client : String) (asOf today : Day) : Schedule :=
  let review := (t.reviews.find? fun r => r.firmId = firm ∧ r.clientId = client).map
    Review.reviewedOn
  let reviewed := review.isSome
  let balances := unbilledBal t firm client asOf
  let balancesOf (side : Side) := (balances.filter fun b => b.1 = side).map Prod.snd
  let payables := apB t firm client asOf
  let missing := unclassified payables
  { asOf
    unbilledReviewedOn := review
    receivables := table "Trade Receivables ageing schedule"
      [(.notDue, "Not due", false), (.lt6m, "Less than 6 months", true),
        (.m6y1, "6 months - 1 year", true), (.y1y2, "1-2 years", true),
        (.y2y3, "2-3 years", true), (.gty3, "More than 3 years", true)]
      (tableRows
        [(.undisputedGood, "(i) Undisputed Trade receivables – considered good"),
          (.undisputedDoubtful, "(ii) Undisputed Trade Receivables – considered doubtful"),
          (.disputedGood, "(iii) Disputed Trade Receivables – considered good"),
          (.disputedDoubtful, "(iv) Disputed Trade Receivables – considered doubtful")]
        (grouped (arB t firm client asOf)))
      reviewed (balancesOf .receivable)
    payables := table "Trade Payables ageing schedule"
      [(.notDue, "Not due", false), (.lty1, "Less than 1 year", true), (.y1y2, "1-2 years", true),
        (.y2y3, "2-3 years", true), (.gty3, "More than 3 years", true)]
      (tableRows
        [(.msme, "(i) MSME"), (.others, "(ii) Others"),
          (.disputedMsme, "(iii) Disputed dues – MSME"),
          (.disputedOthers, "(iv) Disputed dues – Others")]
        (apAgg payables))
      reviewed (balancesOf .payable)
    unclassifiedPaise := (missing.map VendorBalance.outstandingPaise).sum
    unclassifiedVendors := missing.insertionSort fun a b => a.order ≤ b.order
    gaps :=
      (if !reviewed then [gapUnbilledNotReviewed] else []) ++
      (if reviewed && balances.any (·.2.balancePaise < 0) then [gapUnbilledWrongSign] else []) ++
      (if missing.isEmpty then [] else [gapUnclassified]) ++
      (if asOf < today then [gapAsAt] else []) }

end Sql

end Caflow.Reporting.AgeingSchedule
