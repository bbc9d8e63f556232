import Caflow.FixedAssets.ScheduleII

namespace Caflow.FixedAssets

/-- A month's depreciation entry that stands unreversed in the ledger. -/
structure Entry where
  period : ℤ
  chargePaise : ℤ
  deriving DecidableEq

/-- An asset's row and its live depreciation entries, in the order they were posted. -/
structure Book where
  asset : Asset
  entries : List Entry
  deriving DecidableEq

/-- What the period locks, the ledger and the claim on the row answer: a refusal, or nothing. -/
structure Answers where
  lock : Option Failure
  ledger : Option Failure
  claim : Option Failure

def Answers.accepting : Answers := ⟨none, none, none⟩

def periodEndDate (period : ℤ) : Day := ⟨period, daysIn period⟩

/-- The months strictly between the last posted one and another. -/
def monthsMissingBefore (posted period : ℤ) : List ℤ :=
  (List.range (period - posted - 1).toNat).map fun i : ℕ => posted + 1 + (i : ℤ)

theorem mem_months_missing {posted period month : ℤ} :
    month ∈ monthsMissingBefore posted period ↔ posted < month ∧ month < period := by
  simp only [monthsMissingBefore, List.mem_map, List.mem_range]
  constructor
  · rintro ⟨i, hi, rfl⟩
    omega
  · rintro ⟨hlow, hhigh⟩
    exact ⟨(month - posted - 1).toNat, by omega, by omega⟩

theorem none_missing {posted period : ℤ} (h : posted < period) :
    monthsMissingBefore posted period = [] ↔ period = posted + 1 := by
  rw [List.eq_nil_iff_forall_not_mem]
  simp only [mem_months_missing]
  constructor
  · intro hnone
    have := hnone (posted + 1)
    omega
  · intro hnext month
    omega

def labels (months : List ℤ) : String := ", ".intercalate (months.map label)

namespace Asset

variable (asset : Asset)

def postedMonth : Option ℤ := asset.register.postedThrough.map Day.month

/-- The year's charge, its year and the opening balance it is worked out from: the one the row
holds for the year, or the balance as it stands. -/
def annualDepreciationForPeriod (period : ℤ) : Except String (ℤ × ℤ × ℤ) :=
  let fy := fyOf period
  let fyStartAccum :=
    if asset.register.fy = some fy then
      asset.register.fyStartAccumPaise.getD asset.register.accumulatedPaise
    else asset.register.accumulatedPaise
  (asset.computeAnnualDepreciation fyStartAccum).map fun annual => (annual, fy, fyStartAccum)

/-- The purchase month by the days held, the first of them counted. -/
def proratePurchaseMonth (monthlyPaise : ℤ) : ℤ :=
  let days := daysIn asset.purchaseDate.month
  monthlyPaise * (days - asset.purchaseDate.day + 1) / days

/-- A twelfth of the year's charge. -/
def monthlyCharge (annual period : ℤ) : ℤ :=
  let monthly := annual / 12
  if period = asset.purchaseDate.month then asset.proratePurchaseMonth monthly else monthly

end Asset

/-- What a month offered for posting comes to. -/
inductive Outcome where
  | nothing (message : String)
  | posted (depreciationPaise : ℤ) (foreclosedMonths : List ℤ)
  deriving DecidableEq

def postOneMonth (answers : Answers) (book : Book) (period : ℤ) : Except Failure (Outcome × Book) :=
  let asset := book.asset
  let purchaseMonth := asset.purchaseDate.month
  let missing := asset.postedMonth.elim [] fun posted => monthsMissingBefore posted period
  if asset.isDisposed then .error (.http 422 "Cannot depreciate a disposed asset")
  else match asset.postedMonth.filter (period ≤ ·) with
    | some posted =>
      .error (.http 409 ("Depreciation already posted through " ++ label posted))
    | none =>
      if missing ≠ [] then
        .error (.http 422 ("Depreciation for " ++ labels missing ++ " has not been posted — post " ++
          labels (missing.take 1) ++ " first. Skipping a month would leave it unpostable: " ++
          "this asset is posted through " ++ (asset.postedMonth.map label).getD "" ++
          " and that only moves forward."))
      else if period < purchaseMonth then
        .error (.http 422 ("Cannot post depreciation for " ++ label period ++
          " — asset was purchased in " ++ label purchaseMonth ++ "."))
      else match answers.lock, asset.annualDepreciationForPeriod period with
        | some refusal, _ => .error refusal
        | none, .error text => .error (.http 422 text)
        | none, .ok (annual, fy, fyStartAccum) =>
          if annual ≤ 0 then .ok (.nothing "Asset fully depreciated", book)
          else if asset.monthlyCharge annual period ≤ 0 then
            .ok (.nothing "No depreciation to post for this period.", book)
          else match answers.ledger.or answers.claim with
            | some refusal => .error refusal
            | none =>
              let monthly := asset.monthlyCharge annual period
              let newAccum := asset.register.accumulatedPaise + monthly
              let foreclosed :=
                if asset.postedMonth = none ∧ purchaseMonth < period
                then purchaseMonth :: monthsMissingBefore purchaseMonth period else []
              -- an entry already live under the month's number answers for it
              let entries :=
                if book.entries.any (fun e => e.period = period) then book.entries
                else book.entries ++ [⟨period, monthly⟩]
              .ok (.posted monthly foreclosed,
                ⟨{ asset with register :=
                    ⟨newAccum, asset.purchaseCostPaise - newAccum, some (periodEndDate period),
                      some fy, some fyStartAccum⟩ }, entries⟩)

/-- The mark without a month: the month before where it has an entry, and the stated position where
the month was the first after it. -/
def newPostedThrough (book : Book) (period : ℤ) : Option Day :=
  let previous := period - 1
  let byEntry :=
    if book.entries.any (fun e => e.period = previous) then some (periodEndDate previous) else none
  byEntry.or (book.asset.openingPositionDate.filter (previous ≤ ·.month))

/-- Undo the last posted month. -/
def reverseDepreciation (answers : Answers) (book : Book) (period : ℤ) : Except Failure Book :=
  let asset := book.asset
  match asset.postedMonth with
  | none => .error (.http 422 "No depreciation has been posted on this asset.")
  | some posted =>
    if period ≠ posted then
      .error (.http 422 (label posted ++ " is the last month posted — reverse that first. " ++
        "Months come off in the order they went on, because a month " ++
        "below the posted-through mark can never be posted again."))
    else if asset.isDisposed then
      .error (.http 422 ("This asset has been disposed and the gain or loss was computed " ++
        "from its written-down value. Reverse the disposal first."))
    else match answers.lock, book.entries.find? (fun e => e.period = period) with
      | some refusal, _ => .error refusal
      | none, none => .error (.http 404 ("No live depreciation journal found for " ++
          label period ++ ". It may already have been reversed."))
      | none, some entry =>
        if entry.chargePaise ≤ 0 then
          .error (.http 422 ("The " ++ label period ++
            " depreciation journal carries no charge to reverse."))
        else match answers.ledger.or answers.claim with
          | some refusal => .error refusal
          | none =>
            let newMark := newPostedThrough book period
            let newAccum := max 0 (asset.register.accumulatedPaise - entry.chargePaise)
            let cached := newMark.isSome ∧ newMark.map (fyOf ·.month) = asset.register.fy
            .ok ⟨{ asset with register :=
                ⟨newAccum, asset.purchaseCostPaise - newAccum, newMark,
                  if cached then asset.register.fy else none,
                  if cached then asset.register.fyStartAccumPaise else none⟩ },
              book.entries.erase entry⟩

/-- The whole months held that have not been depreciated, up to the one before the disposal. -/
def depreciationMonthsOutstanding (asset : Asset) (disposalDate : Day) : List ℤ :=
  match asset.postedMonth with
  | none =>
    if disposalDate.month ≤ asset.purchaseDate.month then []
    else asset.purchaseDate.month :: monthsMissingBefore asset.purchaseDate.month disposalDate.month
  | some posted =>
    if disposalDate.month ≤ posted then []
    else monthsMissingBefore posted disposalDate.month

/-- What `dispose_asset` answers for unposted months. -/
def unpostedRefusal (asset : Asset) (disposalDate : Day) : Option Failure :=
  let outstanding := depreciationMonthsOutstanding asset disposalDate
  if outstanding = [] then none
  else some (.http 422 ("Depreciation for " ++ labels outstanding ++ " has not been posted. " ++
    "The gain or loss on disposal is computed from the written-down " ++
    "value, so posting it now would book a WDV " ++ toString outstanding.length ++
    " month" ++ (if 1 < outstanding.length then "s" else "") ++ " too high. Post " ++
    labels (outstanding.take 1) ++ " first."))

end Caflow.FixedAssets
