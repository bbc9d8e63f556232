import Caflow.Banking.CellText
import Caflow.Banking.Normalizer

namespace Caflow.Banking
open Text (strip)

/-! ### The columns of a statement -/

inductive MappingKey where
  | date
  | desc
  | ref
  | debit
  | credit
  | amount
  | drcr
  | balance
  deriving DecidableEq

def MappingKey.text : MappingKey → String
  | .date => "date"
  | .desc => "desc"
  | .ref => "ref"
  | .debit => "debit"
  | .credit => "credit"
  | .amount => "amount"
  | .drcr => "drcr"
  | .balance => "balance"

def mappingKeys : List MappingKey := [.date, .desc, .ref, .debit, .credit, .amount, .drcr, .balance]

def requiredMappingKeys : List MappingKey := [.date, .desc]

/-- A position as a mapping gives it: none, one that reads as a whole number, or another value, as it
prints. -/
inductive RawPosition where
  | none
  | position (idx : ℤ)
  | unreadable (repr : String)

/-- Where each column is, if it is mapped. -/
abbrev Layout := MappingKey → Option ℕ

def cleanPosition (headerCount : ℕ) (key : String) :
    RawPosition → Except Raised (Option ℕ)
  | .none => .ok Option.none
  | .unreadable repr =>
    .error (.statementParseError ("Column '" ++ key ++ "' must be a column position, got " ++ repr ++
      "."))
  | .position idx =>
    if idx < 0 ∨ (headerCount : ℤ) ≤ idx then
      .error (.statementParseError ("Column '" ++ key ++ "' points at position " ++
        toString (idx + 1) ++ ", but the file has " ++ toString headerCount ++ " column" ++
        (if headerCount ≠ 1 then "s" else "") ++ "."))
    else .ok (some idx.toNat)

def cleanMapping (headerCount : ℕ) :
    List (String × RawPosition) → Except Raised (List (MappingKey × Option ℕ))
  | [] => .ok []
  | (key, raw) :: rest =>
    match mappingKeys.find? (·.text = key) with
    | none =>
      .error (.statementParseError ("Unknown column '" ++ key ++ "'. Expected one of: " ++
        String.intercalate ", " (mappingKeys.map MappingKey.text) ++ "."))
    | some known =>
      match cleanPosition headerCount key raw with
      | .error e => .error e
      | .ok position =>
        match cleanMapping headerCount rest with
        | .error e => .error e
        | .ok clean => .ok ((known, position) :: clean)

def layoutOf (clean : List (MappingKey × Option ℕ)) : Layout := fun key =>
  ((clean.find? (·.1 = key)).map Prod.snd).join

/-- The first column that two keys claim, in the mapping's order. -/
def doubled : List (MappingKey × ℕ) → List (MappingKey × ℕ) → Option (ℕ × MappingKey × MappingKey)
  | _, [] => none
  | seen, (key, idx) :: rest =>
    match seen.find? (·.2 = idx) with
    | some earlier => some (idx, earlier.1, key)
    | none => doubled ((key, idx) :: seen) rest

def validateMapping (mapping : List (String × RawPosition)) (headerCount : ℕ) :
    Except Raised Layout :=
  match cleanMapping headerCount mapping with
  | .error e => .error e
  | .ok clean =>
    let a := layoutOf clean
    match requiredMappingKeys.find? fun key => (a key).isNone with
    | some key =>
      .error (.statementParseError ("The " ++ key.text ++
        " column must be mapped — without it a row is not a transaction."))
    | none =>
      let hasDebitCredit := (a .debit).isSome || (a .credit).isSome
      let hasAmountDrcr := (a .amount).isSome || (a .drcr).isSome
      if hasDebitCredit && hasAmountDrcr then
        .error (.statementParseError ("Map EITHER separate Debit and Credit columns, OR one Amount " ++
          "column with a Dr/Cr indicator — not both."))
      else if !hasDebitCredit && !hasAmountDrcr then
        .error (.statementParseError ("Map the amounts: either separate Debit and Credit columns, " ++
          "or one Amount column with a Dr/Cr indicator."))
      else if hasAmountDrcr && ((a .amount).isNone || (a .drcr).isNone) then
        .error (.statementParseError ("A single Amount column needs a Dr/Cr indicator column to say " ++
          "which way each row goes."))
      else
        match doubled [] (clean.filterMap fun entry => entry.2.map fun idx => (entry.1, idx)) with
        | some (idx, earlier, key) =>
          .error (.statementParseError ("Column " ++ toString (idx + 1) ++ " is mapped to both '" ++
            earlier.text ++ "' and '" ++ key.text ++ "'. Each column can only be one thing."))
        | none => .ok a

/-! ### Rows -/

def col (a : Layout) (cells : List String) (key : MappingKey) : Option String :=
  (a key).bind fun i => cells[i]?

def blank (cell : String) : Bool := strip cell = ""

def description (a : Layout) (cells : List String) : String :=
  ((col a cells .desc).map strip).getD ""

def referenceNo (a : Layout) (cells : List String) : Option String :=
  match col a cells .ref with
  | none => none
  | some ref => if strip ref = "" then none else some (strip ref)

/-- What the indicator column mentions, without its capitals and its dots. -/
def indicator (a : Layout) (cells : List String) : List Char :=
  (lower (strip ((col a cells .drcr).getD "")).toList).rdropWhile (· = '.')

def indicatorDebitTokens : List (List Char) := ["d", "dr", "debit", "withdrawal"].map String.toList

def indicatorCreditTokens : List (List Char) := ["c", "cr", "credit", "deposit"].map String.toList

def isDebit (a : Layout) (cells : List String) : Bool := indicator a cells ∈ indicatorDebitTokens

def isCredit (a : Layout) (cells : List String) : Bool := indicator a cells ∈ indicatorCreditTokens

/-- The two amounts of a row, or none where a single amount is nothing or has no direction. -/
def amounts (a : Layout) (cells : List String) : Except Raised (Option (ℤ × ℤ)) :=
  if (a .amount).isSome then
    match toPaise (col a cells .amount) with
    | .error e => .error e
    | .ok paise =>
      if |paise| = 0 ∨ (!isDebit a cells && !isCredit a cells) then .ok none
      else .ok (some (if isDebit a cells then |paise| else 0, if isCredit a cells then |paise| else 0))
  else
    match toPaise (col a cells .debit) with
    | .error e => .error e
    | .ok debit =>
      match toPaise (col a cells .credit) with
      | .error e => .error e
      | .ok credit => .ok (some (|debit|, |credit|))

/-- What a row of the body gives: a transaction, or nothing where it is no transaction. -/
def rowTxn (a : Layout) (cells : List String) : Except Raised (Option NormalizedTxn) :=
  if (cells.filter fun c => !blank c).length < 3 then .ok none
  else
    match toIsoDate (col a cells .date) with
    | none => .ok none
    | some iso =>
      if description a cells = "" then .ok none
      else
        match amounts a cells with
        | .error e => .error e
        | .ok none => .ok none
        | .ok (some (debit, credit)) =>
          match toPaise (col a cells .balance) with
          | .error e => .error e
          | .ok balance =>
            .ok (some
              { transactionDate := iso
                description := description a cells
                referenceNo := referenceNo a cells
                debitPaise := debit
                creditPaise := credit
                balancePaise := balance
                isBalanceMarker := decide (debit = 0 ∧ credit = 0) })

def bodyTxns (a : Layout) : List (List String) → Except Raised (List NormalizedTxn)
  | [] => .ok []
  | cells :: rest =>
    match rowTxn a cells with
    | .error e => .error e
    | .ok txn =>
      match bodyTxns a rest with
      | .error e => .error e
      | .ok txns => .ok (txn.toList ++ txns)

def rowsToTxns (rows : List (List String)) (headerIdx : ℕ) (mapping : List (String × RawPosition)) :
    Except Raised (List NormalizedTxn) :=
  match validateMapping mapping (rows.getD headerIdx []).length with
  | .error e => .error e
  | .ok a => bodyTxns a (rows.drop (headerIdx + 1))

/-! ### Tables -/

def mentions (text : List Char) (word : String) : Bool := word.toList <:+: text

def looksLikeHeader (cells : List String) : Bool :=
  let text := [' '].intercalate (cells.map fun c => lower c.toList)
  mentions text "date" &&
    (mentions text "debit" || mentions text "amount" || mentions text "withdrawal" || mentions text "credit")

/-- The first of the top ten rows that looks like a header, else the first of all. -/
def findHeaderIdx (rows : List (List String)) : ℕ :=
  ((rows.take 10).findIdx? looksLikeHeader).getD 0

/-- A table of text cells to transactions, by a mapping. -/
def tableTxns (rows : List (List String)) (mapping : List (String × RawPosition)) :
    Except Raised (List NormalizedTxn) :=
  if rows.length < 2 then .error (.statementParseError "File has no data rows.")
  else
    match rowsToTxns rows (findHeaderIdx rows) mapping with
    | .error e => .error e
    | .ok [] =>
      .error (.statementParseError "No transactions found — check the file format/columns.")
    | .ok txns => .ok txns

end Caflow.Banking
