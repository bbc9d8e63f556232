import Caflow.Settlement.PartyCredit
import Caflow.Lib.SharedTotal

set_option linter.all false

namespace Caflow.Settlement.PartyCredit
open SharedTotal

/-- What a call has moved on the balance, by where it stands. -/
def moved (call : CreditCall) : Phase → ℤ
  | .readBalance _ | .writeBalance _ _ => 0
  | .raised _ residue => residue.balance
  | _ => call.delta

/-- What a call has written to the ledger. -/
def recorded (call : CreditCall) : Phase → ℤ
  | .finished => call.delta
  | .raised _ residue => residue.ledger
  | _ => 0

/-- What a call puts on a document. -/
def CreditCall.pays (call : CreditCall) : ℤ :=
  match call.operation with
  | .apply _ _ => call.amountPaise
  | _ => 0

/-- What a call has put on the document it settles. -/
def put (call : CreditCall) : Phase → ℤ
  | .writeLedger | .finished => call.pays
  | .readToRestore _ _ paise | .restore _ _ _ paise => paise
  | .raised _ residue => residue.document
  | _ => 0

/-- What a call has put on one document. -/
def settled (appliedTo : AppliedTo) (documentId : String) (call : CreditCall) (phase : Phase) : ℤ :=
  if call.operation = .apply appliedTo documentId then put call phase else 0

def Tables.paid (tables : Tables) (appliedTo : AppliedTo) (documentId : String) : ℤ :=
  (tables.documents appliedTo documentId).elim 0 Target.paidPaise

/-- A document's columns that no credit writes. -/
def Target.billed (doc : Target) : String × ℤ × ℤ × ℤ × ℤ :=
  (doc.partyId, doc.totalPaise, doc.netPayablePaise, doc.raisedPaise, doc.notedPaise)

/-- Grants minus revocations minus applications. -/
def Tables.credited (tables : Tables) : ℤ := (tables.ledger.map LedgerRow.amountPaise).sum

/-- The balance is the running sum of the ledger, and none of it is owed. -/
structure Tables.Consistent (tables : Tables) : Prop where
  nonneg : 0 ≤ tables.balance.getD 0
  summed : tables.balance.getD 0 = tables.credited

/-- What holds of a call by where it stands: it checked its amount, and only an application comes
to a document. -/
def Standing (tables : Tables) (call : CreditCall) : Phase → Prop
  | .readBalance _ | .writeLedger | .finished => 0 < call.amountPaise
  | .writeBalance _ held => 0 < call.amountPaise ∧ 0 ≤ held.getD 0 + call.delta
  | .readDocument _ | .writeDocument _ _ | .readToRestore _ _ _ | .restore _ _ _ _ =>
    0 < call.amountPaise ∧ tables.balance.isSome ∧ ∃ t id, call.operation = .apply t id
  | .raised _ _ => True

/-- What one statement does to the tables is what the call's shares say. -/
structure Moves (call : CreditCall) (before after : Tables) (p q : Phase) : Prop where
  balance : after.balance.getD 0 = before.balance.getD 0 + (moved call q - moved call p)
  ledger : after.credited = before.credited + (recorded call q - recorded call p)
  document : ∀ t id, after.paid t id = before.paid t id + (settled t id call q - settled t id call p)
  billed : ∀ t id, (after.documents t id).map Target.billed =
    (before.documents t id).map Target.billed
  nonneg : 0 ≤ before.balance.getD 0 → 0 ≤ after.balance.getD 0
  kept : before.balance.isSome → after.balance.isSome

/-- Whether the document still holds what a call read of it. -/
def Unmoved (tables : Tables) (operation : Operation) (read : Target) : Prop :=
  ∃ t id doc, operation = .apply t id ∧ tables.documents t id = some doc ∧
    doc.paidPaise = read.paidPaise

/-- A statement that strands nothing: what is lost wrote nothing or only gave credit back, giving
credit back goes through, and the ledger row goes in. -/
def Kept (call : CreditCall) (tables : Tables) : Phase → Answer → Prop
  | .writeBalance _ held, .lost => tables.balance ≠ held
  | .writeDocument _ read, .lost => ¬ Unmoved tables call.operation read
  | .readToRestore _ _ _, reply => reply = .answered
  | .restore left held _ _, .answered => tables.balance = some held ∨ left ≠ 0
  | .restore _ held _ _, .lost => tables.balance = some held
  | .restore _ _ _ _, .failed => False
  | .writeLedger, .failed => False
  | .writeLedger, .lost => ∀ t id, call.operation ≠ .apply t id
  | _, _ => True

/-- A call that raised left nothing behind, or, if it was no application, what its row says. -/
def Clean (call : CreditCall) : Phase → Prop
  | .readToRestore _ _ paise | .restore _ _ _ paise => paise = 0
  | .raised _ residue =>
    residue.balance = residue.ledger ∧ ((∃ t id, call.operation = .apply t id) → residue = untouched)
  | _ => True

/-- What one statement of a call does. -/
structure Advances (call : CreditCall) (tables : Tables) (p : Phase) (reply : Answer)
    (next : Tables × Phase) : Prop where
  moves : Moves call tables next.1 p next.2
  standing : Standing next.1 call next.2
  clean : Clean call p → Kept call tables p reply → Clean call next.2

section
variable {party : Party} {call : CreditCall} {tables : Tables}

theorem settled_of_put (h : put call q = put call p) (t : AppliedTo) (id : String) :
    settled t id call q = settled t id call p := by
  unfold settled
  rw [h]

theorem pays_of_apply {appliedTo : AppliedTo} {documentId : String}
    (hop : call.operation = .apply appliedTo documentId) : call.pays = call.amountPaise := by
  unfold CreditCall.pays
  rw [hop]

theorem pays_of_none (hother : ∀ t id, call.operation ≠ .apply t id) : call.pays = 0 := by
  unfold CreditCall.pays
  split
  · rename_i t id hop
    exact absurd hop (hother t id)
  · rfl

/-- A statement that writes nothing, from where the shares are the same. -/
theorem moves_still (hmoved : moved call q = moved call p)
    (hrecorded : recorded call q = recorded call p) (hput : put call q = put call p) :
    Moves call tables tables p q where
  balance := by omega
  ledger := by omega
  document := by
    intro t id
    rw [settled_of_put hput]
    omega
  billed := fun _ _ => rfl
  nonneg := id
  kept := id

/-- The balance is written, by what the call's share moves. -/
theorem moves_balance (hmoved : tables.balance.getD 0 + (moved call q - moved call p) = balance)
    (hnonneg : 0 ≤ balance) (hrecorded : recorded call q = recorded call p)
    (hput : put call q = put call p) :
    Moves call tables { tables with balance := some balance } p q where
  balance := hmoved.symm
  ledger := by
    change tables.credited = _
    omega
  document := by
    intro t id
    change tables.paid t id = _
    rw [settled_of_put hput]
    omega
  billed := fun _ _ => rfl
  nonneg := fun _ => hnonneg
  kept := fun _ => rfl

theorem credited_append (tables : Tables) (row : LedgerRow) :
    Tables.credited { tables with ledger := tables.ledger ++ [row] } =
      tables.credited + row.amountPaise := by
  unfold Tables.credited
  rw [List.map_append, List.sum_append, List.map_singleton, List.sum_singleton]

theorem row_amount (call : CreditCall) : call.row.amountPaise = call.delta := by
  unfold CreditCall.row
  split <;> rfl

/-- The ledger row goes in. -/
theorem moves_ledger (hmoved : moved call q = moved call p)
    (hrecorded : recorded call q = recorded call p + call.delta) (hput : put call q = put call p) :
    Moves call tables { tables with ledger := tables.ledger ++ [call.row] } p q where
  balance := by
    change tables.balance.getD 0 = _
    omega
  ledger := by
    rw [credited_append, row_amount]
    omega
  document := by
    intro t id
    change tables.paid t id = _
    rw [settled_of_put hput]
    omega
  billed := fun _ _ => rfl
  nonneg := id
  kept := id

/-- The document is written, under its guard. -/
theorem moves_document {appliedTo : AppliedTo} {documentId : String} {doc read : Target}
    (hop : call.operation = .apply appliedTo documentId)
    (hdoc : tables.documents appliedTo documentId = some doc)
    (hread : doc.paidPaise = read.paidPaise)
    (hmoved : moved call q = moved call p) (hrecorded : recorded call q = recorded call p)
    (hput : put call q = put call p + call.amountPaise) :
    Moves call tables (tables.setDocument appliedTo documentId
      (doc.settled read appliedTo call.amountPaise)) p q where
  balance := by
    change tables.balance.getD 0 = _
    omega
  ledger := by
    change tables.credited = _
    omega
  document := by
    intro t id
    unfold Tables.paid settled
    by_cases hsame : t = appliedTo ∧ id = documentId
    · obtain ⟨rfl, rfl⟩ := hsame
      rw [set_document_same, hdoc, if_pos hop, if_pos hop, hput]
      change read.paidPaise + call.amountPaise = doc.paidPaise + _
      omega
    · have hother : ¬ call.operation = .apply t id := by
        rw [hop]
        rintro ⟨⟩
        exact hsame ⟨rfl, rfl⟩
      rw [set_document_other _ _ hsame, if_neg hother, if_neg hother]
      omega
  billed := by
    intro t id
    by_cases hsame : t = appliedTo ∧ id = documentId
    · obtain ⟨rfl, rfl⟩ := hsame
      rw [set_document_same, hdoc]
      rfl
    · rw [set_document_other _ _ hsame]
  nonneg := id
  kept := id

/-- Reading the balance refuses, or leads to a write the balance has room for. -/
theorem balance_read_cases (party : Party) (call : CreditCall) (left : ℕ)
    (hpositive : 0 < call.amountPaise) (hnonneg : 0 ≤ balance.getD 0) :
    (∃ failure, balanceRead party call balance left = .raised failure untouched) ∨
      balanceRead party call balance left = .writeBalance left balance ∧
        0 ≤ balance.getD 0 + call.delta := by
  unfold balanceRead CreditCall.delta
  cases call.operation with
  | grant sourceType sourceId => exact .inr ⟨rfl, by dsimp only; omega⟩
  | revoke sourceType sourceId =>
    dsimp only
    split
    · exact .inl ⟨_, rfl⟩
    · exact .inr ⟨rfl, by omega⟩
  | apply appliedTo documentId =>
    cases balance with
    | none => exact .inl ⟨_, rfl⟩
    | some held =>
      dsimp only
      split
      · exact .inl ⟨_, rfl⟩
      · exact .inr ⟨rfl, by dsimp only [Option.getD_some]; omega⟩

theorem document_read_cases (party : Party) (call : CreditCall) (doc : Option Target)
    (appliedTo : AppliedTo) (documentId : String) (left : ℕ) :
    (∃ failure, documentRead party call doc appliedTo documentId left = giveBack failure 0) ∨
      ∃ read, documentRead party call doc appliedTo documentId left = .writeDocument left read := by
  unfold documentRead
  split
  · exact .inl ⟨_, rfl⟩
  · split
    · exact .inl ⟨_, rfl⟩
    · split
      · exact .inl ⟨_, rfl⟩
      · exact .inr ⟨_, rfl⟩

/-- Where a call goes once its balance write is answered: to its document if it has one. -/
theorem balance_written_cases (call : CreditCall) :
    (balanceWritten call = .writeLedger ∧ ∀ t id, call.operation ≠ .apply t id) ∨
      balanceWritten call = .readDocument (maxRetries - 1) ∧
        ∃ t id, call.operation = .apply t id := by
  unfold balanceWritten
  cases call.operation with
  | grant sourceType sourceId => exact .inl ⟨rfl, by simp⟩
  | revoke sourceType sourceId => exact .inl ⟨rfl, by simp⟩
  | apply appliedTo documentId => exact .inr ⟨rfl, _, _, rfl⟩

theorem raised_untouched (failure : Failure) : Clean call (.raised failure untouched) :=
  ⟨rfl, fun _ => rfl⟩

theorem advance_read_balance (hstanding : Standing tables call (.readBalance left))
    (hnonneg : 0 ≤ tables.balance.getD 0) :
    Advances call tables (.readBalance left) reply
      (advance party call tables (.readBalance left) reply) := by
  have hfault : Advances call tables (.readBalance left) reply (tables, .raised .fault untouched) :=
    ⟨moves_still rfl rfl rfl, trivial, fun _ _ => raised_untouched _⟩
  cases reply with
  | answered =>
    have hcases := balance_read_cases party call left hstanding hnonneg
    unfold advance
    dsimp only
    rcases hcases with ⟨failure, hread⟩ | ⟨hread, hroom⟩
    · rw [hread]
      exact ⟨moves_still rfl rfl rfl, trivial, fun _ _ => raised_untouched _⟩
    · rw [hread]
      exact ⟨moves_still rfl rfl rfl, ⟨hstanding, hroom⟩, fun _ _ => trivial⟩
  | failed => exact hfault
  | lost => exact hfault

theorem advance_write_balance (hstanding : Standing tables call (.writeBalance left held)) :
    Advances call tables (.writeBalance left held) reply
      (advance party call tables (.writeBalance left held) reply) := by
  obtain ⟨hpositive, hroom⟩ := hstanding
  have hfault : Advances call tables (.writeBalance left held) reply
      (tables, .raised .fault untouched) :=
    ⟨moves_still rfl rfl rfl, trivial, fun _ _ => raised_untouched _⟩
  cases reply with
  | failed => exact hfault
  | answered =>
    unfold advance
    dsimp only
    split
    · rename_i hsame
      rw [if_neg (by simp)]
      rcases balance_written_cases call with ⟨hnext, hother⟩ | ⟨hnext, happly⟩
      · rw [hnext]
        refine ⟨moves_balance ?_ hroom rfl ?_, hpositive, fun _ _ => trivial⟩
        · rw [hsame]
          change _ + (call.delta - 0) = _
          omega
        · exact pays_of_none hother
      · rw [hnext]
        refine ⟨moves_balance ?_ hroom rfl rfl, ⟨hpositive, rfl, happly⟩, fun _ _ => trivial⟩
        rw [hsame]
        change _ + (call.delta - 0) = _
        omega
    · rw [if_neg (by simp)]
      cases left with
      | zero => exact ⟨moves_still rfl rfl rfl, trivial, fun _ _ => raised_untouched _⟩
      | succ left => exact ⟨moves_still rfl rfl rfl, hpositive, fun _ _ => trivial⟩
  | lost =>
    unfold advance
    dsimp only
    split
    · rename_i hsame
      rw [if_pos rfl]
      refine ⟨moves_balance ?_ hroom rfl rfl, trivial, fun _ hkept => absurd hsame hkept⟩
      rw [hsame]
      change _ + (call.delta - 0) = _
      omega
    · rw [if_pos rfl]
      exact ⟨moves_still rfl rfl rfl, trivial, fun _ _ => raised_untouched _⟩

/-- A call that gives its credit back, having put nothing on its document. -/
theorem advances_give_back (hmoved : moved call p = call.delta) (hrecorded : recorded call p = 0)
    (hput : put call p = 0) (hpositive : 0 < call.amountPaise) (hheld : tables.balance.isSome)
    (happly : ∃ t id, call.operation = .apply t id) (failure : Failure) (reply : Answer) :
    Advances call tables p reply (tables, giveBack failure 0) :=
  ⟨moves_still hmoved.symm hrecorded.symm hput.symm, ⟨hpositive, hheld, happly⟩,
    fun _ _ => rfl⟩

theorem advance_read_document (hstanding : Standing tables call (.readDocument left)) :
    Advances call tables (.readDocument left) reply
      (advance party call tables (.readDocument left) reply) := by
  obtain ⟨hpositive, hheld, happly⟩ := hstanding
  have hback := advances_give_back (p := .readDocument left) rfl rfl rfl hpositive hheld happly
  obtain ⟨appliedTo, documentId, hop⟩ := happly
  unfold advance
  dsimp only
  rw [hop]
  cases reply with
  | answered =>
    dsimp only
    rcases document_read_cases party call (tables.documents appliedTo documentId) appliedTo
      documentId left with ⟨failure, hread⟩ | ⟨read, hread⟩
    · rw [hread]
      exact hback failure _
    · rw [hread]
      exact ⟨moves_still rfl rfl rfl, ⟨hpositive, hheld, _, _, hop⟩, fun _ _ => trivial⟩
  | failed => exact hback _ _
  | lost => exact hback _ _

/-- A guarded write meets the document as it was read, or writes nothing. -/
theorem guard_cases (tables : Tables) {appliedTo : AppliedTo} {documentId : String}
    (hop : call.operation = .apply appliedTo documentId) (read : Target) :
    (∃ doc, (tables.documents appliedTo documentId).filter
        (fun doc => doc.paidPaise = read.paidPaise) = some doc ∧
      tables.documents appliedTo documentId = some doc ∧ doc.paidPaise = read.paidPaise) ∨
    (tables.documents appliedTo documentId).filter
        (fun doc => doc.paidPaise = read.paidPaise) = none ∧
      ¬ Unmoved tables call.operation read := by
  cases hguard : (tables.documents appliedTo documentId).filter
      (fun doc => doc.paidPaise = read.paidPaise) with
  | some doc =>
    obtain ⟨hdoc, hsame⟩ := Option.filter_eq_some_iff.mp hguard
    exact .inl ⟨doc, rfl, hdoc, of_decide_eq_true hsame⟩
  | none =>
    refine .inr ⟨rfl, ?_⟩
    rintro ⟨t, id, doc, hop', hdoc, hsame⟩
    rw [hop] at hop'
    obtain ⟨rfl, rfl⟩ := Operation.apply.inj hop'
    exact Option.filter_eq_none_iff.mp hguard doc hdoc (decide_eq_true hsame)

theorem advance_write_document {read : Target}
    (hstanding : Standing tables call (.writeDocument left read)) :
    Advances call tables (.writeDocument left read) reply
      (advance party call tables (.writeDocument left read) reply) := by
  obtain ⟨hpositive, hheld, happly⟩ := hstanding
  have hback := advances_give_back (p := .writeDocument left read) rfl rfl rfl hpositive hheld
    happly
  obtain ⟨appliedTo, documentId, hop⟩ := happly
  have hguard := guard_cases tables hop read
  unfold advance
  dsimp only
  rw [hop]
  cases reply with
  | answered =>
    dsimp only
    rcases hguard with ⟨doc, hfound, hdoc, hsame⟩ | ⟨hnone, -⟩
    · rw [hfound]
      refine ⟨moves_document hop hdoc hsame rfl rfl ?_, hpositive, fun _ _ => trivial⟩
      change call.pays = 0 + call.amountPaise
      rw [pays_of_apply hop, zero_add]
    · rw [hnone]
      cases left with
      | zero => exact hback _ _
      | succ left =>
        exact ⟨moves_still rfl rfl rfl, ⟨hpositive, hheld, _, _, hop⟩, fun _ _ => trivial⟩
  | failed => exact hback _ _
  | lost =>
    dsimp only
    rcases hguard with ⟨doc, hfound, hdoc, hsame⟩ | ⟨hnone, -⟩
    · rw [hfound]
      refine ⟨moves_document hop hdoc hsame rfl rfl ?_, ⟨hpositive, hheld, _, _, hop⟩, ?_⟩
      · exact (zero_add call.amountPaise).symm
      · intro _ hkept
        exact absurd ⟨_, _, doc, hop, hdoc, hsame⟩ hkept
    · rw [hnone]
      exact hback _ _

theorem advance_read_to_restore {failure : Failure}
    (hstanding : Standing tables call (.readToRestore left failure paise)) :
    Advances call tables (.readToRestore left failure paise) reply
      (advance party call tables (.readToRestore left failure paise) reply) := by
  obtain ⟨hpositive, hheld, happly⟩ := hstanding
  obtain ⟨held, hbalance⟩ := Option.isSome_iff_exists.mp hheld
  unfold advance
  dsimp only
  rw [hbalance]
  cases reply with
  | answered =>
    exact ⟨moves_still rfl rfl rfl, ⟨hpositive, hheld, happly⟩, fun hclean _ => hclean⟩
  | failed => exact ⟨moves_still rfl rfl rfl, trivial, fun _ hkept => nomatch hkept⟩
  | lost => exact ⟨moves_still rfl rfl rfl, trivial, fun _ hkept => nomatch hkept⟩

theorem advance_restore {failure : Failure}
    (hstanding : Standing tables call (.restore left held failure paise))
    (hnonneg : 0 ≤ tables.balance.getD 0) :
    Advances call tables (.restore left held failure paise) reply
      (advance party call tables (.restore left held failure paise) reply) := by
  obtain ⟨hpositive, hheld, happly⟩ := hstanding
  have hdelta : call.delta = -call.amountPaise := by
    obtain ⟨t, id, hop⟩ := happly
    unfold CreditCall.delta
    rw [hop]
  have hgiven : ∀ raised, tables.balance = some held →
      Moves call tables { tables with balance := some (held + call.amountPaise) }
        (.restore left held failure paise) (.raised raised ⟨0, 0, paise⟩) := by
    intro raised hsame
    rw [hsame] at hnonneg
    dsimp only [Option.getD_some] at hnonneg
    refine moves_balance ?_ (by omega) rfl rfl
    rw [hsame]
    change held + (0 - call.delta) = _
    omega
  have hclean : ∀ raised, Clean call (.restore left held failure paise) →
      Clean call (.raised raised ⟨0, 0, paise⟩) := by
    intro raised hpaise
    exact ⟨rfl, fun _ => congrArg (Residue.mk 0 0) hpaise⟩
  unfold advance
  dsimp only
  cases reply with
  | failed => exact ⟨moves_still rfl rfl rfl, trivial, fun _ hkept => hkept.elim⟩
  | answered =>
    dsimp only
    split
    · rename_i hsame
      exact ⟨hgiven _ hsame, trivial, fun h _ => hclean _ h⟩
    · rename_i hother
      rw [if_neg (by simp)]
      cases left with
      | zero =>
        exact ⟨moves_still rfl rfl rfl, trivial, fun _ hkept => (hkept.elim hother (· rfl)).elim⟩
      | succ left =>
        exact ⟨moves_still rfl rfl rfl, ⟨hpositive, hheld, happly⟩, fun h _ => h⟩
  | lost =>
    dsimp only
    split
    · rename_i hsame
      exact ⟨hgiven _ hsame, trivial, fun h _ => hclean _ h⟩
    · rename_i hother
      rw [if_pos rfl]
      exact ⟨moves_still rfl rfl rfl, trivial, fun _ hkept => (hother hkept).elim⟩

theorem advance_write_ledger (hstanding : Standing tables call .writeLedger) :
    Advances call tables .writeLedger reply (advance party call tables .writeLedger reply) := by
  unfold advance
  dsimp only
  cases reply with
  | answered =>
    exact ⟨moves_ledger rfl (zero_add _).symm rfl, hstanding, fun _ _ => trivial⟩
  | failed => exact ⟨moves_still rfl rfl rfl, trivial, fun _ hkept => hkept.elim⟩
  | lost =>
    refine ⟨moves_ledger rfl (zero_add _).symm rfl, trivial, fun _ hkept => ⟨rfl, ?_⟩⟩
    rintro ⟨t, id, hop⟩
    exact absurd hop (hkept t id)

theorem advances (party : Party) (p : Phase) (reply : Answer)
    (hstanding : Standing tables call p) (hnonneg : 0 ≤ tables.balance.getD 0) :
    Advances call tables p reply (advance party call tables p reply) := by
  cases p with
  | readBalance left => exact advance_read_balance hstanding hnonneg
  | writeBalance left held => exact advance_write_balance hstanding
  | readDocument left => exact advance_read_document hstanding
  | writeDocument left read => exact advance_write_document hstanding
  | readToRestore left failure paise => exact advance_read_to_restore hstanding
  | restore left held failure paise => exact advance_restore hstanding hnonneg
  | writeLedger => exact advance_write_ledger hstanding
  | finished => exact ⟨moves_still rfl rfl rfl, hstanding, fun h _ => h⟩
  | raised failure residue => exact ⟨moves_still rfl rfl rfl, hstanding, fun h _ => h⟩

/-- Where a call stands does not come to depend on what others write. -/
theorem standing_mono (hkept : tables.balance.isSome → tables'.balance.isSome)
    (h : Standing tables call p) : Standing tables' call p := by
  cases p with
  | readDocument left => exact ⟨h.1, hkept h.2.1, h.2.2⟩
  | writeDocument left read => exact ⟨h.1, hkept h.2.1, h.2.2⟩
  | readToRestore left failure paise => exact ⟨h.1, hkept h.2.1, h.2.2⟩
  | restore left held failure paise => exact ⟨h.1, hkept h.2.1, h.2.2⟩
  | _ => exact h

theorem begin_cases (party : Party) (call : CreditCall) :
    (∃ failure, begin party call = .raised failure untouched) ∨
      begin party call = .readBalance (maxRetries - 1) ∧ 0 < call.amountPaise := by
  unfold begin
  cases call.operation with
  | apply appliedTo documentId =>
    dsimp only
    split
    · exact .inl ⟨_, rfl⟩
    · split
      · exact .inl ⟨_, rfl⟩
      · exact .inr ⟨rfl, by omega⟩
  | _ =>
    dsimp only
    split
    · exact .inl ⟨_, rfl⟩
    · exact .inr ⟨rfl, by omega⟩

end

section
variable {ι : Type} {party : Party} {calls : ι → CreditCall} {tables : Tables}

/-- What holds of the tables in every state that calls on one party reach. -/
structure Conserved [Fintype ι] (calls : ι → CreditCall) (tables : Tables) (s : State ι) : Prop where
  nonneg : 0 ≤ s.tables.balance.getD 0
  standing : ∀ i, Standing s.tables (calls i) (s.phase i)
  balance : Accounted (fun i => moved (calls i)) (tables.balance.getD 0) (s.tables.balance.getD 0)
    s.phase
  ledger : Accounted (fun i => recorded (calls i)) tables.credited s.tables.credited s.phase
  document : ∀ t id, Accounted (fun i => settled t id (calls i)) (tables.paid t id)
    (s.tables.paid t id) s.phase
  billed : ∀ t id, (s.tables.documents t id).map Target.billed =
    (tables.documents t id).map Target.billed

theorem start_conserved [Fintype ι] (party : Party) (calls : ι → CreditCall)
    (hnonneg : 0 ≤ tables.balance.getD 0) :
    Conserved calls tables (start party calls tables) where
  nonneg := hnonneg
  standing := by
    intro i
    change Standing tables (calls i) (begin party (calls i))
    rcases begin_cases party (calls i) with ⟨failure, hbegin⟩ | ⟨hbegin, hpositive⟩
    · rw [hbegin]
      trivial
    · rw [hbegin]
      exact hpositive
  balance := by
    apply accounted_start
    intro i
    change moved (calls i) (begin party (calls i)) = 0
    rcases begin_cases party (calls i) with ⟨failure, hbegin⟩ | ⟨hbegin, -⟩ <;> rw [hbegin] <;> rfl
  ledger := by
    apply accounted_start
    intro i
    change recorded (calls i) (begin party (calls i)) = 0
    rcases begin_cases party (calls i) with ⟨failure, hbegin⟩ | ⟨hbegin, -⟩ <;> rw [hbegin] <;> rfl
  document := by
    intro t id
    apply accounted_start
    intro i
    change settled t id (calls i) (begin party (calls i)) = 0
    unfold settled
    rcases begin_cases party (calls i) with ⟨failure, hbegin⟩ | ⟨hbegin, -⟩ <;> rw [hbegin] <;>
      exact ite_self 0
  billed := fun _ _ => rfl

theorem start_clean (party : Party) (calls : ι → CreditCall) (tables : Tables) (i : ι) :
    Clean (calls i) ((start party calls tables).phase i) := by
  change Clean (calls i) (begin party (calls i))
  rcases begin_cases party (calls i) with ⟨failure, hbegin⟩ | ⟨hbegin, -⟩
  · rw [hbegin]
    exact raised_untouched failure
  · rw [hbegin]
    trivial

variable [DecidableEq ι]

theorem step_conserved [Fintype ι] {s : State ι} (h : Conserved calls tables s)
    (event : ι × Answer) : Conserved calls tables (step party calls s event) := by
  obtain ⟨i, reply⟩ := event
  have hadvance := advances party (s.phase i) reply (h.standing i) h.nonneg
  have hmoves := hadvance.moves
  exact {
    nonneg := hmoves.nonneg h.nonneg
    standing := by
      intro j
      change Standing _ (calls j) (Function.update s.phase i _ j)
      by_cases hj : j = i
      · subst hj
        rw [Function.update_self]
        exact hadvance.standing
      · rw [Function.update_of_ne hj]
        exact standing_mono hmoves.kept (h.standing j)
    balance := h.balance.step i _ hmoves.balance
    ledger := h.ledger.step i _ hmoves.ledger
    document := fun t id => (h.document t id).step i _ (hmoves.document t id)
    billed := fun t id => (hmoves.billed t id).trans (h.billed t id) }

theorem step_clean [Fintype ι] {s : State ι} (h : Conserved calls tables s)
    (hclean : ∀ i, Clean (calls i) (s.phase i))
    (hkept : Kept (calls i) s.tables (s.phase i) reply) (j : ι) :
    Clean (calls j) ((step party calls s (i, reply)).phase j) := by
  change Clean (calls j) (Function.update s.phase i _ j)
  by_cases hj : j = i
  · subst hj
    rw [Function.update_self]
    exact (advances party (s.phase j) reply (h.standing j) h.nonneg).clean (hclean j) hkept
  · rw [Function.update_of_ne hj]
    exact hclean j

/-- Every statement of a run strands nothing. -/
def KeptAlong (party : Party) (calls : ι → CreditCall) : State ι → List (ι × Answer) → Prop
  | _, [] => True
  | s, event :: events =>
    Kept (calls event.1) s.tables (s.phase event.1) event.2 ∧
      KeptAlong party calls (step party calls s event) events

theorem run_conserved [Fintype ι] {s : State ι} (events : List (ι × Answer))
    (h : Conserved calls tables s) : Conserved calls tables (run party calls s events) := by
  induction events generalizing s with
  | nil => exact h
  | cons event events ih => exact ih (step_conserved h event)

theorem run_clean [Fintype ι] {s : State ι} (events : List (ι × Answer))
    (h : Conserved calls tables s) (hclean : ∀ i, Clean (calls i) (s.phase i))
    (hkept : KeptAlong party calls s events) (i : ι) :
    Clean (calls i) ((run party calls s events).phase i) := by
  induction events generalizing s with
  | nil => exact hclean i
  | cons event events ih =>
    obtain ⟨hfirst, hrest⟩ := hkept
    exact ih (step_conserved h event) (step_clean h hclean hfirst) hrest

def Phase.Ended : Phase → Prop
  | .finished | .raised _ _ => True
  | _ => False

theorem ended_shares (hended : p.Ended) (hclean : Clean call p) :
    moved call p = recorded call p := by
  cases p with
  | finished => rfl
  | raised failure residue => exact hclean.1
  | _ => exact hended.elim

/-- In every state that calls on one party reach, the balance is not negative, it and every
document are what the calls' shares make them, an application that raised has no share in them,
and once all calls have ended the balance is the sum of the ledger. -/
theorem party_credit_conserved [Fintype ι] (party : Party) (calls : ι → CreditCall)
    (tables : Tables) (events : List (ι × Answer)) (hstart : tables.Consistent)
    (hkept : KeptAlong party calls (start party calls tables) events) :
    let s := run party calls (start party calls tables) events
    0 ≤ s.tables.balance.getD 0 ∧
      s.tables.balance.getD 0 = tables.balance.getD 0 + ∑ i, moved (calls i) (s.phase i) ∧
      (∀ t id, s.tables.paid t id =
          tables.paid t id + ∑ i, settled t id (calls i) (s.phase i) ∧
        (s.tables.documents t id).map Target.billed =
          (tables.documents t id).map Target.billed) ∧
      (∀ i failure residue, (∃ t id, (calls i).operation = .apply t id) →
        s.phase i = .raised failure residue →
        moved (calls i) (s.phase i) = 0 ∧ ∀ t id, settled t id (calls i) (s.phase i) = 0) ∧
      ((∀ i, (s.phase i).Ended) → s.tables.balance.getD 0 = s.tables.credited) := by
  intro s
  have hstarted := start_conserved party calls hstart.nonneg
  have h : Conserved calls tables s := run_conserved events hstarted
  have hclean : ∀ i, Clean (calls i) (s.phase i) :=
    run_clean events hstarted (start_clean party calls tables) hkept
  refine ⟨h.nonneg, h.balance, fun t id => ⟨h.document t id, h.billed t id⟩, ?_, ?_⟩
  · intro i failure residue happly hraised
    have hresidue := hclean i
    rw [hraised] at hresidue ⊢
    obtain rfl := hresidue.2 happly
    refine ⟨rfl, fun t id => ?_⟩
    unfold settled
    exact ite_self 0
  · intro hended
    have hbalance : Accounted (fun i => moved (calls i)) tables.credited
        (s.tables.balance.getD 0) s.phase := by
      rw [← hstart.summed]
      exact h.balance
    exact hbalance.congr h.ledger fun i => ended_shares (hended i) (hclean i)

end

def customer : Party := ⟨.customer, "cust"⟩

def invoice : Target where
  partyId := "cust"
  totalPaise := 118000
  netPayablePaise := 0
  raisedPaise := 0
  notedPaise := 0
  paidPaise := 0
  status := .issued

/-- A customer with a credit of 500 rupees, granted by one bank transaction, and one invoice. -/
def books : Tables where
  balance := some 50000
  documents := fun t id => if t = .salesInvoice ∧ id = "inv" then some invoice else none
  ledger := [(⟨.grant "bank_txn" (some "txn"), 50000⟩ : CreditCall).row]

def application : CreditCall := ⟨.apply .salesInvoice "inv", 30000⟩

/-- An application whose document cannot be read, and a grant that beats its restore once. -/
def calls : Bool → CreditCall
  | true => application
  | false => ⟨.grant "bank_txn" (some "other"), 10000⟩

def interleaving : List (Bool × Answer) :=
  [(true, .answered), (false, .answered), (true, .answered), (false, .answered), (false, .answered),
    (true, .failed), (true, .answered), (false, .answered), (true, .answered), (true, .answered),
    (true, .answered), (false, .answered)]

theorem credit_given_back :
    let s := run customer calls (start customer calls books) interleaving
    (∃ failure, s.phase true = .raised failure untouched) ∧ s.phase false = .finished ∧
      s.tables.balance.getD 0 = s.tables.credited := by
  refine ⟨⟨.fault, rfl⟩, rfl, ?_⟩
  have hkept : KeptAlong customer calls (start customer calls books) interleaving :=
    ⟨trivial, trivial, trivial, trivial, trivial, trivial, rfl, trivial, .inr (by decide), rfl,
      .inl rfl, trivial, trivial⟩
  refine (party_credit_conserved customer calls books interleaving ⟨by decide, rfl⟩ hkept).2.2.2.2 ?_
  intro i
  cases i <;> trivial

/-- The application's own ledger row does not go in: it raises, with the credit spent and the
invoice paid. -/
theorem credit_burned :
    books.Consistent ∧
      let calls := fun _ : Unit => application
      let s := run customer calls (start customer calls books)
        [((), .answered), ((), .answered), ((), .answered), ((), .answered), ((), .failed)]
      (∃ residue, s.phase () = .raised .fault residue) ∧
        s.tables.balance = some 20000 ∧ s.tables.paid .salesInvoice "inv" = 30000 ∧
        s.tables.credited = 50000 :=
  ⟨⟨by decide, rfl⟩, ⟨_, rfl⟩, rfl, rfl, rfl⟩

end Caflow.Settlement.PartyCredit
