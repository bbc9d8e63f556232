import Caflow.Banking.CellReading
import Caflow.Banking.StatementRows

namespace Caflow.Banking
open Text (strip)
open Rounding (halfUp)

/-- The paise of a figure: to the digits decimal arithmetic keeps, then to whole paise. -/
def wholePaise (coefficient : ℕ) (exponent : ℤ) : ℤ := quantized (significant coefficient exponent)

theorem whole_paise_plain {coefficient : ℕ} {exponent : ℤ} (hdigits : numDigits coefficient ≤ 28)
    (hsmall : halfUp (100 * (coefficient * (10 : ℚ) ^ exponent)) < 10 ^ 28) :
    wholePaise coefficient exponent = halfUp (100 * (coefficient * (10 : ℚ) ^ exponent)) := by
  have hextra : numDigits coefficient - 28 = 0 := Nat.sub_eq_zero_of_le hdigits
  have hsame : significant coefficient exponent = (coefficient, exponent) := by
    unfold significant
    simp [hextra, Nat.mod_one]
  unfold wholePaise quantized
  rw [hsame]
  exact if_neg (not_le.mpr hsmall)

/-- A cell whose figure, if it has one, is a number that the arithmetic holds. -/
def InRange (cell : Option String) : Prop :=
  ∀ s, cell = some s → ¬ NanText s ∧ ∀ coefficient exponent, Denotes s coefficient exponent →
    overflows (significant coefficient exponent) = false

/-- Whether a cell is blank or reads as a number that the arithmetic holds. -/
def readable (cell : Option String) : Bool :=
  match cell with
  | none => true
  | some s =>
    (strip s).toList = [] || (strip s).toList = ['-'] ||
      match readDecimal (stripParens (splitMarker (cleaned s)).2) with
      | some (.finite _ coefficient exponent) => !overflows (significant coefficient exponent)
      | _ => false

theorem readable_in_range {cell : Option String} (h : readable cell = true) : InRange cell := by
  rintro s rfl
  unfold readable at h
  simp only [Bool.or_eq_true, decide_eq_true_eq] at h
  rcases h with hblank | hread
  · exact ⟨fun hnan => hnan.read.1 hblank, fun coefficient exponent hfigure =>
      absurd hblank hfigure.read.1⟩
  · constructor
    · intro hnan
      rw [hnan.read.2] at hread
      cases hread
    · intro coefficient exponent hfigure
      obtain ⟨-, negative, hfinite⟩ := hfigure.read
      rw [hfinite] at hread
      by_cases hfar : coefficient ≠ 0 ∧ maxEmax < exponent + numDigits coefficient - 1
      · rw [if_pos hfar] at hread
        cases hread
      · rw [if_neg hfar] at hread
        simpa using hread

/-- The paise a cell's text denotes, none where it denotes no amount. -/
def AmountOf (cell : Option String) (paise : ℤ) : Prop :=
  (∀ s coefficient exponent, cell = some s → Denotes s coefficient exponent →
    paise = wholePaise coefficient exponent) ∧
  ((∀ s coefficient exponent, cell = some s → ¬ Denotes s coefficient exponent) → paise = 0)

theorem to_paise_read {cell : Option String} (h : InRange cell) :
    ∃ paise, toPaise cell = .ok paise ∧ AmountOf cell |paise| := by
  cases cell with
  | none => exact ⟨0, rfl, nofun, fun _ => abs_zero⟩
  | some s =>
    obtain ⟨hnan, hrange⟩ := h s rfl
    by_cases hdenotes : ∃ coefficient exponent, Denotes s coefficient exponent
    · obtain ⟨coefficient, exponent, hfigure⟩ := hdenotes
      obtain ⟨paise, hpaise, -⟩ := to_paise_denotes hfigure (hrange _ _ hfigure)
      refine ⟨paise, hpaise, ?_, fun hnone => absurd hfigure (hnone s _ _ rfl)⟩
      intro s' coefficient' exponent' hs' hfigure'
      cases hs'
      obtain ⟨paise', hpaise', habs⟩ := to_paise_denotes hfigure' (hrange _ _ hfigure')
      rw [hpaise] at hpaise'
      cases hpaise'
      exact habs
    · have hnone : ∀ coefficient exponent, ¬ Denotes s coefficient exponent :=
        fun coefficient exponent hfigure => hdenotes ⟨coefficient, exponent, hfigure⟩
      refine ⟨0, to_paise_nothing hnone hnan, ?_, fun _ => abs_zero⟩
      intro s' coefficient exponent hs' hfigure
      cases hs'
      exact absurd hfigure (hnone coefficient exponent)

/-- A row that gives a transaction: three cells with something in them, a date in one of the
spellings, a description, and where the statement has one amount column an amount with a direction. -/
def keeps (a : Layout) (cells : List String) : Bool :=
  3 ≤ (cells.filter fun c => !blank c).length && (toIsoDate (col a cells .date)).isSome &&
    description a cells ≠ "" &&
    (!(a .amount).isSome || toPaise (col a cells .amount) ≠ .ok 0 &&
      (isDebit a cells || isCredit a cells))

/-- What a transaction has of its row. -/
structure Reads (a : Layout) (cells : List String) (t : NormalizedTxn) : Prop where
  date : ∀ s d, col a cells .date = some s → Spelled (strip s).toList d → t.transactionDate = d.text
  debitNonneg : 0 ≤ t.debitPaise
  creditNonneg : 0 ≤ t.creditPaise
  single : (a .amount).isSome = true → ∃ paise, AmountOf (col a cells .amount) paise ∧
    t.debitPaise = (if isDebit a cells then paise else 0) ∧
    t.creditPaise = (if isCredit a cells then paise else 0)
  columns : (a .amount).isSome = false →
    AmountOf (col a cells .debit) t.debitPaise ∧ AmountOf (col a cells .credit) t.creditPaise

/-- The money columns of a row hold figures in range. -/
def RowInRange (a : Layout) (cells : List String) : Prop :=
  ∀ key ∈ [MappingKey.debit, .credit, .amount, .balance], InRange (col a cells key)

theorem amounts_read {a : Layout} {cells : List String} (h : RowInRange a cells) :
    ∃ outcome, amounts a cells = .ok outcome ∧
      (outcome = none ↔ ¬ (!(a .amount).isSome || toPaise (col a cells .amount) ≠ .ok 0 &&
        (isDebit a cells || isCredit a cells)) = true) ∧
      ∀ debit credit, outcome = some (debit, credit) → 0 ≤ debit ∧ 0 ≤ credit ∧
        ((a .amount).isSome = true → ∃ paise, AmountOf (col a cells .amount) paise ∧
          debit = (if isDebit a cells then paise else 0) ∧
          credit = (if isCredit a cells then paise else 0)) ∧
        ((a .amount).isSome = false →
          AmountOf (col a cells .debit) debit ∧ AmountOf (col a cells .credit) credit) := by
  unfold amounts
  cases hmode : (a .amount).isSome with
  | true =>
    obtain ⟨paise, hpaise, hamount⟩ := to_paise_read (h .amount (by decide))
    rw [if_pos rfl, hpaise]
    dsimp only
    have hzero : (Except.ok paise : Except Raised ℤ) = .ok 0 ↔ |paise| = 0 := by
      rw [abs_eq_zero]
      exact ⟨fun heq => Except.ok.inj heq, fun heq => heq ▸ rfl⟩
    split
    · rename_i hskip
      refine ⟨none, rfl, ?_, nofun⟩
      simp only [true_iff, Bool.not_true, Bool.false_or, Bool.and_eq_true, Bool.or_eq_true,
        decide_eq_true_eq, ne_eq, hzero]
      rintro ⟨hsome, hway⟩
      rcases hskip with habs | hnone
      · exact hsome habs
      · simp only [Bool.and_eq_true, Bool.not_eq_eq_eq_not, Bool.not_true] at hnone
        rcases hway with hdebit | hcredit
        · rw [hnone.1] at hdebit
          cases hdebit
        · rw [hnone.2] at hcredit
          cases hcredit
    · rename_i hkept
      refine ⟨_, rfl, ?_, ?_⟩
      · simp only [reduceCtorEq, false_iff, not_not, Bool.not_true, Bool.false_or, Bool.and_eq_true,
          Bool.or_eq_true, decide_eq_true_eq, ne_eq, hzero]
        rw [not_or] at hkept
        refine ⟨hkept.1, ?_⟩
        have hway := hkept.2
        cases hdebit : isDebit a cells with
        | true => exact Or.inl rfl
        | false =>
          cases hcredit : isCredit a cells with
          | true => exact Or.inr rfl
          | false =>
            rw [hdebit, hcredit] at hway
            exact absurd rfl hway
      · intro debit credit heq
        obtain ⟨rfl, rfl⟩ := Prod.mk.inj (Option.some.inj heq)
        refine ⟨?_, ?_, fun _ => ⟨|paise|, hamount, rfl, rfl⟩, nofun⟩
        · split
          · exact abs_nonneg paise
          · exact le_rfl
        · split
          · exact abs_nonneg paise
          · exact le_rfl
  | false =>
    obtain ⟨debit, hdebit, hdebitAmount⟩ := to_paise_read (h .debit (by decide))
    obtain ⟨credit, hcredit, hcreditAmount⟩ := to_paise_read (h .credit (by decide))
    rw [if_neg (by decide), hdebit]
    dsimp only
    rw [hcredit]
    refine ⟨_, rfl, by simp, ?_⟩
    intro debit' credit' heq
    obtain ⟨rfl, rfl⟩ := Prod.mk.inj (Option.some.inj heq)
    exact ⟨abs_nonneg debit, abs_nonneg credit, nofun, fun _ => ⟨hdebitAmount, hcreditAmount⟩⟩

/-- A row whose figures are in range raises nothing, and gives a transaction when it is kept. -/
theorem row_txn_read {a : Layout} {cells : List String} (h : RowInRange a cells) :
    (keeps a cells = true → ∃ t, rowTxn a cells = .ok (some t) ∧ Reads a cells t) ∧
      (keeps a cells = false → rowTxn a cells = .ok none) := by
  obtain ⟨outcome, houtcome, hnone, hread⟩ := amounts_read h
  obtain ⟨balance, hbalance, -⟩ := to_paise_read (h .balance (by decide))
  unfold keeps rowTxn
  by_cases hfew : (cells.filter fun c => !blank c).length < 3
  · rw [if_pos hfew]
    refine ⟨fun hkept => ?_, fun _ => rfl⟩
    simp only [Bool.and_eq_true, decide_eq_true_eq] at hkept
    omega
  · rw [if_neg hfew]
    cases hdate : toIsoDate (col a cells .date) with
    | none => exact ⟨fun hkept => by simp at hkept, fun _ => rfl⟩
    | some iso =>
      dsimp only
      by_cases hdesc : description a cells = ""
      · rw [if_pos hdesc]
        exact ⟨fun hkept => by simp [hdesc] at hkept, fun _ => rfl⟩
      · rw [if_neg hdesc, houtcome]
        cases outcome with
        | none =>
          have hskip := hnone.mp rfl
          rw [Bool.not_eq_true] at hskip
          rw [hskip, Bool.and_false]
          exact ⟨nofun, fun _ => rfl⟩
        | some pair =>
          obtain ⟨debit, credit⟩ := pair
          dsimp only
          rw [hbalance]
          have hkept := not_not.mp fun hskip => Option.some_ne_none _ (hnone.mpr hskip)
          rw [hkept]
          have hthree : 3 ≤ (cells.filter fun c => !blank c).length := not_lt.mp hfew
          refine ⟨fun _ => ⟨_, rfl, ?_⟩, fun hdrop => by simp [hthree, hdesc] at hdrop⟩
          obtain ⟨hdebit, hcredit, hsingle, hcolumns⟩ := hread debit credit rfl
          refine ⟨fun s d hcell hspelled => ?_, hdebit, hcredit, hsingle, hcolumns⟩
          rw [hcell, to_iso_date_spelled hspelled] at hdate
          exact (Option.some.inj hdate).symm

theorem body_txns_read {a : Layout} {body : List (List String)}
    (h : ∀ cells ∈ body, RowInRange a cells) :
    ∃ txns, bodyTxns a body = .ok txns ∧ List.Forall₂ (Reads a) (body.filter (keeps a)) txns := by
  induction body with
  | nil => exact ⟨[], rfl, List.Forall₂.nil⟩
  | cons cells body ih =>
    obtain ⟨txns, htxns, hreads⟩ := ih fun row hrow => h row (List.mem_cons_of_mem _ hrow)
    obtain ⟨hkept, hdropped⟩ := row_txn_read (h cells List.mem_cons_self)
    unfold bodyTxns
    cases hkeeps : keeps a cells with
    | true =>
      obtain ⟨t, ht, hread⟩ := hkept hkeeps
      rw [ht, htxns, List.filter_cons_of_pos hkeeps]
      exact ⟨t :: txns, rfl, List.Forall₂.cons hread hreads⟩
    | false =>
      rw [hdropped hkeeps, htxns, List.filter_cons_of_neg (by simp [hkeeps])]
      exact ⟨txns, rfl, hreads⟩

/-- A table is read row by row: each row that is kept gives one transaction, with the day its date
cell spells and the amounts its cells denote to whole paise; the others give none, and are as many as
the rows are more than the transactions. -/
theorem statement_rows_read (rows : List (List String)) (headerIdx : ℕ)
    (mapping : List (String × RawPosition)) (a : Layout)
    (hmapping : validateMapping mapping (rows.getD headerIdx []).length = .ok a)
    (hrange : ∀ cells ∈ rows.drop (headerIdx + 1), RowInRange a cells) :
    ∃ txns, rowsToTxns rows headerIdx mapping = .ok txns ∧
      List.Forall₂ (Reads a) ((rows.drop (headerIdx + 1)).filter (keeps a)) txns ∧
      ((rows.drop (headerIdx + 1)).filter fun cells => !keeps a cells).length =
        (rows.drop (headerIdx + 1)).length - txns.length ∧
      (2 ≤ rows.length → headerIdx = findHeaderIdx rows →
        tableTxns rows mapping = .ok txns ∧ txns ≠ [] ∨
          ∃ text, tableTxns rows mapping = .error (.statementParseError text) ∧ txns = []) := by
  obtain ⟨txns, htxns, hreads⟩ := body_txns_read hrange
  have hrows : rowsToTxns rows headerIdx mapping = .ok txns := by
    unfold rowsToTxns
    rw [hmapping]
    exact htxns
  refine ⟨txns, hrows, hreads, ?_, fun hlong hheader => ?_⟩
  · have hcount := List.length_eq_length_filter_add (l := rows.drop (headerIdx + 1)) (keeps a)
    have hlength := hreads.length_eq
    omega
  · unfold tableTxns
    rw [if_neg (not_lt.mpr hlong), ← hheader, hrows]
    cases txns with
    | nil => exact Or.inr ⟨_, rfl, rfl⟩
    | cons t txns => exact Or.inl ⟨rfl, List.cons_ne_nil _ _⟩

/-- A statement with an overdrawn day, a fee in parentheses and a totals line. -/
theorem statement_rows_read_bank :
    let rows := [["Date", "Narration", "Debit", "Credit", "Balance"],
      ["01/04/2025", "Opening", "", "", "₹ 1,000.00 Cr"],
      ["2 Apr 2025", "Charges", "(1,250.50)", "-", "250.50Dr"],
      ["2025-04-03", "Sale", "", "5e2", "249.50"],
      ["Grand Total", "", "1250.50", "500.00", ""]]
    let mapping : List (String × RawPosition) := [("date", .position 0), ("desc", .position 1),
      ("debit", .position 2), ("credit", .position 3), ("balance", .position 4)]
    ∃ a txns, rowsToTxns rows 0 mapping = .ok txns ∧
      List.Forall₂ (Reads a) ((rows.drop 1).filter (keeps a)) txns ∧
      ((rows.drop 1).filter fun cells => !keeps a cells).length = (rows.drop 1).length - txns.length ∧
      (2 ≤ rows.length → 0 = findHeaderIdx rows →
        tableTxns rows mapping = .ok txns ∧ txns ≠ [] ∨
          ∃ text, tableTxns rows mapping = .error (.statementParseError text) ∧ txns = []) := by
  refine ⟨_, statement_rows_read _ 0 _ _ rfl fun cells hcells key hkey => readable_in_range ?_⟩
  revert key cells
  decide +kernel

/-- A thousandth of a rupee is rounded to whole paise, and a day that stands behind its year and
month in no known spelling leaves its row out. -/
theorem amounts_rounded_rows_left :
    rowsToTxns [["Date", "Narration", "Debit", "Credit"], ["02/04/2025", "Rent", "10.005", ""],
        ["2025/04/03", "Fee", "250.00", ""]] 0
      [("date", .position 0), ("desc", .position 1), ("debit", .position 2),
        ("credit", .position 3)] =
      .ok [{ transactionDate := "2025-04-02", description := "Rent", referenceNo := none,
             debitPaise := 1001, creditPaise := 0, balancePaise := 0 }] ∧
    Denotes "10.005" 10005 (-3) ∧ (1001 : ℚ) ≠ 100 * (10005 * (10 : ℚ) ^ (-3 : ℤ)) := by
  refine ⟨by decide +kernel, ⟨"10.005".toList, ?_, ?_⟩, by norm_num⟩
  · refine ⟨[], "10.005".toList, [], [], [], by decide +kernel, nofun, nofun, Or.inl rfl, Or.inl rfl,
      by decide +kernel⟩
  · have hfigures : ['1', '0', '0', '0', '5'].all isDigit = true := by decide +kernel
    have hwritten := Written.mk ['1', '0'] ['.'] ['0', '0', '5'] [] 0 (by decide)
      (List.all_eq_true.mp hfigures) (Or.inl rfl) (Or.inl ⟨rfl, rfl⟩)
    have hvalue : number (['1', '0'] ++ ['0', '0', '5']) = 10005 := by decide +kernel
    rw [hvalue] at hwritten
    exact hwritten

end Caflow.Banking
