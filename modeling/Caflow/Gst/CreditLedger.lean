import Caflow.Failure
import Caflow.Text

namespace Caflow.Gst

inductive Head
  | igst | cgst | sgst | cess
  deriving DecidableEq

instance : Fintype Head := ⟨{.igst, .cgst, .sgst, .cess}, fun h => by cases h <;> decide⟩

def Head.upper : Head → String
  | .igst => "IGST"
  | .cgst => "CGST"
  | .sgst => "SGST"
  | .cess => "CESS"

def heads : List Head := [.igst, .cgst, .sgst, .cess]

/-- One figure for each head. -/
abbrev Tax := Head → ℤ

def Tax.of (igst cgst sgst cess : ℤ) : Tax
  | .igst => igst
  | .cgst => cgst
  | .sgst => sgst
  | .cess => cess

def Tax.total (t : Tax) : ℤ := t .igst + t .cgst + t .sgst + t .cess

/-- The credit held under each head. What is owed to the department is a demand, not a balance. -/
structure CreditBalance where
  paise : Tax
  nonneg : ∀ h, 0 ≤ paise h

def CreditBalance.nil : CreditBalance := ⟨fun _ => 0, fun _ => le_rfl⟩

def CreditBalance.totalPaise (b : CreditBalance) : ℤ := b.paise.total

/-- A figure as it reaches the ledger: a whole number of paise, or something else as it prints. -/
inductive Figure
  | paise (p : ℤ)
  | notWhole (repr : String)

def Figure.value : Figure → ℤ
  | .paise p => p
  | .notWhole _ => 0

/-- Why a figure cannot be the credit under a head. -/
def refusal (h : Head) : Figure → Option Failure
  | .notWhole repr => some (.valueError
      ("The " ++ h.upper ++ " credit must be a whole number of paise, not " ++ repr ++ "."))
  | .paise v =>
    if v < 0 then some (.valueError
      ("The " ++ h.upper ++ " credit cannot be negative (" ++ Text.rupeesPaise v ++
        "): a credit ledger holds what the department owes the taxpayer, and what the taxpayer " ++
        "owes it is a demand, which is not recorded here."))
    else none

theorem none_refused {src : Head → Figure}
    (h : heads.findSome? (fun h => refusal h (src h)) = none) (head : Head) :
    0 ≤ (src head).value := by
  have hmem : head ∈ heads := by cases head <;> decide
  have hnone := List.findSome?_eq_none_iff.mp h head hmem
  cases hsrc : src head with
  | notWhole repr => exact le_rfl
  | paise v =>
    rw [hsrc, refusal] at hnone
    split at hnone
    · cases hnone
    · exact not_lt.mp ‹_›

/-- A balance of four figures, refused at the first head that cannot hold its own. -/
def creditBalance (src : Head → Figure) : Except Failure CreditBalance :=
  match h : heads.findSome? (fun h => refusal h (src h)) with
  | some refused => .error refused
  | none => .ok ⟨fun head => (src head).value, none_refused h⟩

theorem credit_balance_ok {paise : Tax} (h : ∀ head, 0 ≤ paise head) :
    creditBalance (fun head => .paise (paise head)) = .ok ⟨paise, h⟩ := by
  have hnone : heads.findSome? (fun head => refusal head (.paise (paise head))) = none := by
    rw [List.findSome?_eq_none_iff]
    intro head _
    rw [refusal, if_neg (not_lt.mpr (h head))]
  unfold creditBalance
  split
  · rename_i refused hsome
    rw [hnone] at hsome
    cases hsome
  · rfl

/-- A day of the calendar, counted from some first day. -/
abbrev Day := ℕ

structure PreviousClosing where
  balance : CreditBalance
  period : String
  status : String
  asOf : Day

def PreviousClosing.isFiled (p : PreviousClosing) : Bool := Text.lower p.status = "submitted"

/-- A balance that a person keyed from the portal for one window. -/
structure RecordedOpening where
  balance : CreditBalance
  note : Option String
  recordedAt : Option String

inductive Source
  | recorded | previousReturn | notRecorded | unreadable

/-- The balance the set-off opens with, and where it came from. -/
structure OpeningCredit where
  balance : CreditBalance
  source : Source
  windowStart : Day
  chain : Option PreviousClosing
  recorded : Option RecordedOpening
  recordedMinusChain : Option Tax
  sentences : List String

def periodLabel (period : String) : String :=
  let names := ["January", "February", "March", "April", "May", "June", "July", "August",
    "September", "October", "November", "December"]
  let p := (Text.strip period).toList
  let earlier := if p = [] then "the earlier period" else String.ofList p
  if p.length = 6 && p.all Char.isDigit then
    match Text.readNat (p.take 2) with
    | some (month + 1) =>
      match names[month]? with
      | some name => name ++ " " ++ String.ofList (p.drop 2)
      | none => earlier
    | _ => earlier
  else earlier

def differsSentence (recorded : RecordedOpening) (previous : PreviousClosing) : String :=
  "The balance you recorded (" ++ Text.rupeesPaise recorded.balance.totalPaise ++
    ") differs from the " ++ Text.rupeesPaise previous.balance.totalPaise ++ " the " ++
    periodLabel previous.period ++ " return left in the ledger. The recorded figure is used, " ++
    "because the portal's ledger is what a return is actually paid from; check that the " ++
    "difference is a refund, an ITC-02 transfer or a return filed elsewhere."

def unfiledSentence (previous : PreviousClosing) : String :=
  "This opening is carried from the " ++ periodLabel previous.period ++
    " return, which is saved here as '" ++ previous.status ++ "' and not marked as filed. The " ++
    "portal's credit ledger only moves when a return is filed, so if that return was filed " ++
    "differently — or not yet — record the balance the portal shows instead."

def notRecordedSentence : String :=
  "No opening balance of the electronic credit ledger is recorded for this return, and no " ++
    "earlier return saved here carries one forward. The set-off below assumes the ledger held " ++
    "NOTHING at the start of the period. If the portal shows credit brought forward, record it " ++
    "and compute again: credit in the ledger pays output tax before any cash is due (CGST Act " ++
    "s.49(4)), so this cash figure may be higher than what is actually payable. It cannot be lower."

/-- Which balance the set-off opens with: the recorded one, else the previous return's closing,
else nothing. -/
def resolveOpening (windowStart : Day) (previous : Option PreviousClosing)
    (recorded : Option RecordedOpening) : OpeningCredit :=
  match recorded, previous with
  | some r, some p =>
    if ∃ h ∈ heads, r.balance.paise h - p.balance.paise h ≠ 0 then
      ⟨r.balance, .recorded, windowStart, some p, some r,
        some (fun h => r.balance.paise h - p.balance.paise h), [differsSentence r p]⟩
    else ⟨r.balance, .recorded, windowStart, some p, some r, none, []⟩
  | some r, none => ⟨r.balance, .recorded, windowStart, none, some r, none, []⟩
  | none, some p =>
    ⟨p.balance, .previousReturn, windowStart, some p, none, none,
      if p.isFiled then [] else [unfiledSentence p]⟩
  | none, none =>
    ⟨.nil, .notRecorded, windowStart, none, none, none, [notRecordedSentence]⟩

/-- A recorded balance that repeats the previous closing moves nothing. -/
theorem resolve_opening_unmoved (windowStart : Day) (previous : PreviousClosing)
    (h : ∀ r ∈ recorded, r.balance.paise = previous.balance.paise) :
    (resolveOpening windowStart (some previous) recorded).balance.paise =
      previous.balance.paise := by
  cases recorded with
  | none => rfl
  | some r =>
    have hr := h r rfl
    unfold resolveOpening
    dsimp only
    split <;> exact hr

/-- What the statement says of its source: one of the four, or something else as it prints. -/
inductive SourceText
  | known (s : Source)
  | unknown (repr : String)

/-- What the statement says of its closing date: a date, or something else as it prints. -/
inductive DateText
  | day (d : Day)
  | notADate (repr : String)

/-- One side of the statement. A head that is missing holds no figure. -/
abbrev Figures := Head → Option Figure

structure OpeningBlock where
  source : SourceText
  balance : Option Figures

/-- The block a return carries about the credit ledger, as it comes back to be saved. -/
structure LedgerBlock where
  opening : Option OpeningBlock
  closing : Option Figures
  closingAsOf : DateText

def CreditBalance.figures (b : CreditBalance) : Figures := fun h => some (.paise (b.paise h))

def ledgerBlock (opening : OpeningCredit) (closing : CreditBalance) (windowEnd : Day) :
    LedgerBlock where
  opening := some ⟨.known opening.source, some opening.balance.figures⟩
  closing := some closing.figures
  closingAsOf := .day windowEnd

/-- The columns of a saved return that hold its credit ledger. -/
structure Columns where
  creditOpening : CreditBalance
  creditClosing : CreditBalance
  creditClosingAsOf : Day
  creditOpeningSource : Source

/-- A side of the statement with all four heads. -/
def sideBalance (side : String) (src : Figures) : Except Failure CreditBalance :=
  match heads.find? (fun h => (src h).isNone) with
  | some h => .error (.valueError ("The " ++ side ++ " balance has no " ++ h.upper ++ " figure."))
  | none => creditBalance (fun h => (src h).getD (.paise 0))

/-- The columns a saved return records, or why the statement is not whole. -/
def statementColumns : Option LedgerBlock → Except Failure Columns
  | none => .error (.valueError "The credit-ledger statement is missing.")
  | some block =>
    match block.opening, block.closing with
    | some opening, some closing =>
      match opening.source, opening.balance, block.closingAsOf with
      | .unknown repr, _, _ => .error (.valueError ("The opening balance's source must be one of " ++
          "recorded, previous_return, not_recorded, unreadable, not " ++ repr ++ "."))
      | .known _, none, _ => .error (.valueError "The opening balance is missing.")
      | .known _, some _, .notADate repr => .error (.valueError
          ("The closing balance's date must be written YYYY-MM-DD, not " ++ repr ++ "."))
      | .known source, some balance, .day asOf => do
        let opened ← sideBalance "opening" balance
        let closed ← sideBalance "closing" closing
        return ⟨opened, closed, asOf, source⟩
    | _, _ => .error (.valueError
        "The credit-ledger statement must carry an opening and a closing balance.")

theorem side_balance_figures (side : String) (b : CreditBalance) :
    sideBalance side b.figures = .ok b :=
  credit_balance_ok b.nonneg

/-- What a return says of its credit ledger is saved as it stands. -/
theorem statement_columns_block (opening : OpeningCredit) (closing : CreditBalance)
    (windowEnd : Day) :
    statementColumns (some (ledgerBlock opening closing windowEnd)) =
      .ok ⟨opening.balance, closing, windowEnd, opening.source⟩ := by
  simp only [statementColumns, ledgerBlock, side_balance_figures]
  rfl

/-- The previous closing that a saved return is read back as. -/
def previousClosing (row : Columns) (period status : String) : PreviousClosing :=
  ⟨row.creditClosing, period, status, row.creditClosingAsOf⟩

end Caflow.Gst
