import Caflow.Settlement.Writes

set_option linter.all false

namespace Caflow.Settlement
open Interrupted

/-- The settlement is found in the firm, not yet reversed, and the date accepted. -/
structure Opens (plan : Plan) (firmId settlementId : String) (books : Books)
    (settlement : SettlementRow) : Prop where
  found : books.settlements settlementId = some settlement
  firm : settlement.firmId = firmId
  standing : settlement.isReversed = false
  looked : plan.settlement = none
  dated : plan.period = none

/-- The read that says what a settlement was made to. -/
def nextRead (kind : Kind) (plan : Plan) (settlement : SettlementRow) : Option Failure :=
  match kind, settlement.documentId with
  | .payment, some _ => plan.fx
  | _, _ => plan.allocations

theorem open_ok (kind : Kind) (h : Opens plan firmId settlementId books settlement) :
    openSettlement kind plan firmId settlementId books = .ok settlement books := by
  obtain ⟨hfound, hfirm, hstanding, hlooked, hdated⟩ := h
  unfold openSettlement
  rw [hlooked, bind_ok (show answer none books = .ok () books from rfl),
    bind_ok (show (get : Call Books) books = .ok books books from rfl), hfound,
    Option.filter_some, if_pos (by simpa using hfirm)]
  dsimp only
  rw [hstanding, hdated]
  rfl

theorem open_error (kind : Kind) (h : ∀ settlement, ¬ Opens plan firmId settlementId books settlement) :
    ∃ raised, openSettlement kind plan firmId settlementId books = .error raised books := by
  unfold openSettlement
  cases hlooked : plan.settlement with
  | some raised => exact ⟨raised, rfl⟩
  | none =>
    rw [bind_ok (show answer none books = .ok () books from rfl),
      bind_ok (show (get : Call Books) books = .ok books books from rfl)]
    cases hfound : (books.settlements settlementId).filter (fun s => s.firmId = firmId) with
    | none => exact ⟨_, rfl⟩
    | some settlement =>
      obtain ⟨hat, hfirm⟩ := Option.filter_eq_some_iff.mp hfound
      dsimp only
      cases hstanding : settlement.isReversed with
      | true => exact ⟨_, rfl⟩
      | false =>
        cases hdated : plan.period with
        | some raised => exact ⟨raised, rfl⟩
        | none => exact absurd ⟨hat, by simpa using hfirm, hstanding, hlooked, hdated⟩ (h settlement)

/-- The entry is there to be reversed, and every statement that reverses it is answered. -/
def Reversible (plan : Plan) (firmId entryId : String) (entries : List LedgerEntry) : Prop :=
  ∃ orig, entries.find? (fun e => e.id = entryId ∧ e.firmId = firmId) = some orig ∧
    orig.isPosted = true ∧ orig.reversalOf = none ∧
    entries.any (fun e => e.firmId = firmId ∧ e.reversalOf = some entryId) = false ∧
    orig.lines ≠ [] ∧ plan.entry = none ∧ plan.earlier = none ∧ plan.lines = none ∧
    plan.post = .done

/-- A call that raises nothing once its writes are done. -/
def Closes (plan : Plan) (firmId : String) (settlement : SettlementRow)
    (entries : List LedgerEntry) : Prop :=
  ∃ journalId, settlement.journalEntryId = some journalId ∧
    Reversible plan firmId journalId entries ∧ plan.mark = .done

/-- A settlement but for its mark. -/
def SettlementRow.facts (settlement : SettlementRow) : SettlementRow :=
  { settlement with isReversed := false }

/-- What no step of a call changes. -/
def Books.facts (books : Books) : (String → Option SettlementRow) × List FxAdjustment :=
  (fun id => (books.settlements id).map SettlementRow.facts, books.fxAdjustments)

theorem marked_facts (settlementId firmId clientId : String) (books : Books) :
    (books.markReversed settlementId firmId clientId).facts = books.facts := by
  unfold Books.facts Books.markReversed
  dsimp only
  congr 1
  funext id
  rw [Option.map_map]
  congr 1
  funext s
  dsimp only [Function.comp]
  split <;> rfl

/-- A step that touches neither what is watched nor the facts, and goes through just when `P`. -/
def GoesThrough (m : Call α) (P : Prop) (books : Books) : Prop :=
  ∃ books', books'.watched = books.watched ∧ books'.facts = books.facts ∧
    ((∃ a, m books = .ok a books') ∧ P ∨ (∃ raised, m books = .error raised books') ∧ ¬ P)

theorem goes_through_error {m : Call α} (h : m books = .error raised books) (hP : ¬ P) :
    GoesThrough m P books :=
  ⟨books, rfl, rfl, .inr ⟨⟨raised, h⟩, hP⟩⟩

theorem goes_through_statement (o : Outcome Failure) (effect : Books → Books) (P : Prop)
    (books : Books) (hwatched : (effect books).watched = books.watched)
    (hfacts : (effect books).facts = books.facts) (hP : P ↔ o = .done) :
    GoesThrough (statement o effect) P books := by
  cases o with
  | done => exact ⟨effect books, hwatched, hfacts, .inl ⟨⟨(), rfl⟩, hP.mpr rfl⟩⟩
  | refused e => exact ⟨books, rfl, rfl, .inr ⟨⟨e, rfl⟩, fun h => by cases hP.mp h⟩⟩
  | lost e => exact ⟨effect books, hwatched, hfacts, .inr ⟨⟨e, rfl⟩, fun h => by cases hP.mp h⟩⟩

theorem goes_through_answer {read : Option Failure} {m : Call α}
    (h : read = none → GoesThrough m P books) (hP : P → read = none) :
    GoesThrough (do answer read; m) P books := by
  cases read with
  | none =>
    obtain ⟨books', hwatched, hfacts, hrun⟩ := h rfl
    refine ⟨books', hwatched, hfacts, ?_⟩
    rwa [bind_ok (show answer none books = .ok () books from rfl)]
  | some raised => exact goes_through_error rfl fun h => by cases hP h

theorem reverse_entry_goes (plan : Plan) (firmId entryId reversalDate : String) (books : Books) :
    GoesThrough (reverseEntry plan firmId entryId reversalDate)
      (Reversible plan firmId entryId books.entries) books := by
  unfold reverseEntry
  apply goes_through_answer
  · intro hentry
    unfold GoesThrough
    rw [bind_ok (show (get : Call Books) books = .ok books books from rfl)]
    change GoesThrough _ _ books
    unfold Reversible
    cases hfind : books.entries.find? (fun e => e.id = entryId ∧ e.firmId = firmId) with
    | none => exact goes_through_error rfl (by simp)
    | some orig =>
      simp only [Option.some.injEq, exists_eq_left']
      by_cases hposted : orig.isPosted = false
      · rw [if_pos hposted]
        exact goes_through_error rfl (by simp [hposted])
      rw [if_neg hposted]
      by_cases hreversal : orig.reversalOf ≠ none
      · rw [if_pos hreversal]
        exact goes_through_error rfl (fun h => hreversal h.2.1)
      rw [if_neg hreversal]
      apply goes_through_answer
      · intro hearlier
        by_cases halready : books.entries.any
            (fun e => e.firmId = firmId ∧ e.reversalOf = some entryId) = true
        · rw [if_pos halready]
          exact goes_through_error rfl (fun h => absurd (h.2.2.1.symm.trans halready) (by simp))
        rw [if_neg halready]
        apply goes_through_answer
        · intro hlines
          by_cases hempty : orig.lines = []
          · rw [if_pos hempty]
            exact goes_through_error rfl (fun h => h.2.2.2.1 hempty)
          rw [if_neg hempty]
          apply goes_through_statement _ _ _ _ rfl rfl
          constructor
          · intro h
            exact h.2.2.2.2.2.2.2
          · intro h
            exact ⟨by simpa using hposted, by simpa using hreversal, by simpa using halready,
              hempty, hentry, hearlier, hlines, h⟩
        · intro h
          exact h.2.2.2.2.2.2.1
      · intro h
        exact h.2.2.2.2.2.1
  · rintro ⟨orig, -, -, -, -, -, h, -⟩
    exact h

theorem close_goes (kind : Kind) (plan : Plan) (firmId settlementId reversalDate : String)
    (settlement : SettlementRow) (books : Books) :
    GoesThrough (closeSettlement kind plan firmId settlementId reversalDate settlement)
      (Closes plan firmId settlement books.entries) books := by
  unfold closeSettlement Closes
  cases hjournal : settlement.journalEntryId with
  | none => exact goes_through_error rfl (by simp)
  | some journalId =>
    simp only [Option.some.injEq, exists_eq_left']
    obtain ⟨posted, hwatched, hfacts, ⟨⟨a, hrun⟩, hok⟩ | ⟨⟨raised, hrun⟩, hnot⟩⟩ :=
      reverse_entry_goes plan firmId journalId reversalDate books
    · have hmark := goes_through_statement plan.mark
        (Books.markReversed settlementId firmId settlement.clientId) (plan.mark = .done) posted
        rfl (marked_facts _ _ _ _) Iff.rfl
      obtain ⟨marked, hwatched', hfacts', hrest⟩ := hmark
      refine ⟨marked, hwatched'.trans hwatched, hfacts'.trans hfacts, ?_⟩
      rw [bind_ok hrun]
      rcases hrest with ⟨⟨u, hmarked⟩, hdone⟩ | ⟨⟨raised, hmarked⟩, hnot⟩
      · exact .inl ⟨⟨journalId, bind_ok hmarked _⟩, hok, hdone⟩
      · exact .inr ⟨⟨raised, bind_error hmarked _⟩, fun h => hnot h.2⟩
    · exact ⟨posted, hwatched, hfacts, .inr ⟨⟨raised, bind_error hrun _⟩, fun h => hnot h.1⟩⟩

/-- The settlement is opened, and what it was made to is read. -/
def Begins (kind : Kind) (plan : Plan) (firmId settlementId : String) (books : Books)
    (settlement : SettlementRow) : Prop :=
  Opens plan firmId settlementId books settlement ∧ nextRead kind plan settlement = none

/-- The loop over the allocations, and then their voiding if there are any. -/
def undoAndVoid (rollback : String → ℤ → ℤ → (ℕ → Attempt) → Call Unit) (plan : Plan)
    (settlementId : String) (allocations : List Allocation) : Call Unit := do
  undoAllocations rollback plan.attempts 0 allocations
  if allocations ≠ [] then statement plan.void (Books.voidAllocations settlementId) else pure ()

theorem undo_and_void_performs {rollback : String → ℤ → ℤ → (ℕ → Attempt) → Call Unit}
    (hrollback : ∀ documentId paise txn attempts, Performs Books.watched Books.beside
      (rollback documentId paise txn attempts)
      [documentWrite title firmId clientId documentId paise txn attempts 0 5])
    (plan : Plan) (settlementId : String) (allocations : List Allocation) :
    Performs Books.watched Books.beside (undoAndVoid rollback plan settlementId allocations)
      (allocationWrites title firmId clientId plan.attempts 0 allocations ++
        if allocations ≠ [] then [voidWrite plan.void settlementId] else []) := by
  apply (undo_performs hrollback plan.attempts 0 allocations).andThen
  split
  · exact void_performs plan.void settlementId
  · exact performs_nothing

/-- A call that begins writes, and then closes. -/
theorem reverse_begun (reversalDate : String)
    (h : Begins kind plan firmId settlementId books settlement) :
    ∃ writes : Call Unit, Performs Books.watched Books.beside writes
        (callWrites kind plan firmId settlementId books settlement) ∧
      reverse kind plan firmId settlementId reversalDate books =
        (do
          writes
          let _ ← closeSettlement kind plan firmId settlementId reversalDate settlement
          return () : Call Unit) books := by
  obtain ⟨hopens, hread⟩ := h
  have hopen := fun kind => open_ok kind hopens
  cases kind with
  | receipt =>
    have hread : plan.allocations = none := hread
    refine ⟨undoAndVoid (rollbackInvoicePaid firmId settlement.clientId) plan settlementId
      (books.liveAllocations settlementId), ?_, ?_⟩
    · exact undo_and_void_performs (fun _ _ _ _ => rollback_performs _ _ _ _ _ _ _ _ _ _) _ _ _
    · unfold reverse reverseReceipt undoAndVoid
      simp only [bind_assoc]
      rw [bind_ok (hopen .receipt), hread, bind_ok (show answer none books = .ok () books from rfl),
        bind_ok (show (get : Call Books) books = .ok books books from rfl)]
      by_cases hnone : books.liveAllocations settlementId = [] <;> simp [hnone]
  | payment =>
    cases hdoc : settlement.documentId with
    | none =>
      have hread : plan.allocations = none := by simpa [nextRead, hdoc] using hread
      refine ⟨undoAndVoid (rollbackBillPaid firmId settlement.clientId) plan settlementId
        (books.liveAllocations settlementId), ?_, ?_⟩
      · unfold callWrites
        rw [hdoc]
        exact undo_and_void_performs (fun _ _ _ _ => rollback_performs _ _ _ _ _ _ _ _ _ _) _ _ _
      · unfold reverse reversePayment undoAndVoid
        simp only [bind_assoc]
        rw [bind_ok (hopen .payment), hdoc]
        dsimp only
        simp only [bind_assoc]
        rw [hread, bind_ok (show answer none books = .ok () books from rfl),
          bind_ok (show (get : Call Books) books = .ok books books from rfl)]
        by_cases hnone : books.liveAllocations settlementId = [] <;> simp [hnone]
    | some billId =>
      have hread : plan.fx = none := by simpa [nextRead, hdoc] using hread
      let apRelief := books.paymentApRelief firmId settlement.clientId settlementId settlement
      let txnAmount := settlement.txnAmount.getD 0
      refine ⟨if apRelief > 0 ∨ txnAmount > 0 then
        rollbackBillPaid firmId settlement.clientId billId apRelief txnAmount (plan.attempts 0)
        else pure (), ?_, ?_⟩
      · unfold callWrites
        rw [hdoc]
        dsimp only
        split
        · exact rollback_performs _ _ _ _ _ _ _ _ _ _
        · exact performs_nothing
      · unfold reverse reversePayment
        simp only [bind_assoc]
        rw [bind_ok (hopen .payment), hdoc]
        dsimp only
        simp only [bind_assoc]
        rw [hread, bind_ok (show answer none books = .ok () books from rfl),
          bind_ok (show (get : Call Books) books = .ok books books from rfl)]
        by_cases hdue : apRelief > 0 ∨ txnAmount > 0
        · rw [if_pos hdue, if_pos hdue]
          simp only [bind_assoc]
          rfl
        · rw [if_neg hdue, if_neg hdue]
          simp only [bind_assoc]
          rfl

/-- A call that does not begin changes nothing. -/
theorem reverse_not_begun (reversalDate : String)
    (h : ∀ settlement, ¬ Begins kind plan firmId settlementId books settlement) :
    ∃ raised, reverse kind plan firmId settlementId reversalDate books = .error raised books := by
  by_cases hopens : ∃ settlement, Opens plan firmId settlementId books settlement
  · obtain ⟨settlement, hopens⟩ := hopens
    obtain ⟨raised, hread⟩ : ∃ raised, nextRead kind plan settlement = some raised := by
      cases hread : nextRead kind plan settlement with
      | none => exact absurd ⟨hopens, hread⟩ (h settlement)
      | some raised => exact ⟨raised, rfl⟩
    refine ⟨raised, ?_⟩
    have hopen := fun kind => open_ok kind hopens
    have hanswer : answer (some raised) books = .error raised books := rfl
    cases kind with
    | receipt =>
      have hread : plan.allocations = some raised := hread
      unfold reverse reverseReceipt
      dsimp only
      rw [bind_assoc, bind_ok (hopen .receipt), bind_assoc, hread, bind_error hanswer]
    | payment =>
      unfold reverse reversePayment
      dsimp only
      rw [bind_assoc, bind_ok (hopen .payment)]
      cases hdoc : settlement.documentId with
      | none =>
        have hread : plan.allocations = some raised := by simpa [nextRead, hdoc] using hread
        dsimp only
        rw [bind_assoc, hread, bind_error hanswer]
      | some billId =>
        have hread : plan.fx = some raised := by simpa [nextRead, hdoc] using hread
        dsimp only
        rw [bind_assoc, hread, bind_error hanswer]
  · push Not at hopens
    obtain ⟨raised, herror⟩ := open_error kind hopens
    refine ⟨raised, ?_⟩
    cases kind with
    | receipt =>
      unfold reverse reverseReceipt
      dsimp only
      rw [bind_assoc, bind_error herror]
    | payment =>
      unfold reverse reversePayment
      dsimp only
      rw [bind_assoc, bind_error herror]

/-- Nothing that changes a paid amount or an allocation is carried out, or nothing raises. -/
def Intact (kind : Kind) (plan : Plan) (firmId settlementId : String) (books : Books) : Prop :=
  ∀ settlement, Begins kind plan firmId settlementId books settlement →
    let writes := callWrites kind plan firmId settlementId books settlement
    reaches books.watched writes = false ∨
      Answered books.watched writes ∧ Closes plan firmId settlement books.entries

/-- How a call ends, from what it writes and how it closes. -/
inductive Ends (kind : Kind) (plan : Plan) (firmId settlementId : String) (books books' : Books)
    (r : EStateM.Result Failure Books Unit) : Prop where
  | unbegun (h : ∀ settlement, ¬ Begins kind plan firmId settlementId books settlement)
      (hr : ∃ raised, r = .error raised books) (hsame : books' = books)
  | interrupted (settlement : SettlementRow)
      (h : Begins kind plan firmId settlementId books settlement)
      (hunanswered : ¬ Answered books.watched
        (callWrites kind plan firmId settlementId books settlement))
      (hr : ∃ raised, r = .error raised books')
  | unclosed (settlement : SettlementRow)
      (h : Begins kind plan firmId settlementId books settlement)
      (hopen : ¬ Closes plan firmId settlement books.entries)
      (hr : ∃ raised, r = .error raised books')
  | closed (settlement : SettlementRow)
      (h : Begins kind plan firmId settlementId books settlement)
      (hanswered : Answered books.watched
        (callWrites kind plan firmId settlementId books settlement))
      (hcloses : Closes plan firmId settlement books.entries) (hr : r = .ok () books')

theorem reverse_ends (kind : Kind) (plan : Plan) (firmId settlementId reversalDate : String)
    (books : Books) :
    ∃ books', books'.facts = books.facts ∧
      (∀ settlement, Begins kind plan firmId settlementId books settlement →
        books'.watched =
          (carry (callWrites kind plan firmId settlementId books settlement) books.watched).2) ∧
      Ends kind plan firmId settlementId books books'
        (reverse kind plan firmId settlementId reversalDate books) := by
  by_cases hbegins : ∃ settlement, Begins kind plan firmId settlementId books settlement
  · obtain ⟨settlement, h⟩ := hbegins
    have hone : ∀ other, Begins kind plan firmId settlementId books other → other = settlement := by
      intro other hother
      exact Option.some.inj (hother.1.found.symm.trans h.1.found)
    obtain ⟨writes, hperforms, hreverse⟩ := reverse_begun reversalDate h
    obtain ⟨written, hwatched, hbeside, hrun⟩ := hperforms books
    have hkeys := call_writes_nodup kind plan firmId settlementId books settlement
    have hanswered := carry_completed_iff (v := books.watched) hkeys
    simp only [Books.beside, Prod.mk.injEq] at hbeside
    have hfacts : written.facts = books.facts := by
      unfold Books.facts
      rw [hbeside.1, hbeside.2.1]
    rw [hreverse]
    cases hraised : (carry (callWrites kind plan firmId settlementId books settlement)
      books.watched).1 with
    | some raised =>
      rw [hraised] at hrun
      refine ⟨written, hfacts, ?_, .interrupted settlement h ?_ ⟨raised, bind_error hrun _⟩⟩
      · intro other hother
        rw [hone other hother]
        exact hwatched
      · rw [← hanswered, hraised]
        simp
    | none =>
      rw [hraised] at hrun
      obtain ⟨closed, hcwatched, hcfacts, ⟨⟨a, hok⟩, hcloses⟩ | ⟨⟨raised, herror⟩, hnot⟩⟩ :=
        close_goes kind plan firmId settlementId reversalDate settlement written
      all_goals refine ⟨closed, hcfacts.trans hfacts, ?_, ?_⟩
      · intro other hother
        rw [hone other hother, hcwatched]
        exact hwatched
      · rw [hbeside.2.2] at hcloses
        refine .closed settlement h (hanswered.mp hraised) hcloses ?_
        rw [bind_ok hrun, bind_ok hok]
        rfl
      · intro other hother
        rw [hone other hother, hcwatched]
        exact hwatched
      · rw [hbeside.2.2] at hnot
        refine .unclosed settlement h hnot ⟨raised, ?_⟩
        rw [bind_ok hrun, bind_error herror]
  · push Not at hbegins
    refine ⟨books, rfl, fun settlement h => absurd h (hbegins settlement), ?_⟩
    exact .unbegun hbegins (reverse_not_begun reversalDate hbegins) rfl

/-- The paid amounts and the allocations are as they were. -/
structure SameAmounts (books books' : Books) : Prop where
  documents : ∀ documentId, (books'.documents documentId).map DocumentHeader.amounts =
    (books.documents documentId).map DocumentHeader.amounts
  allocations : books'.allocations.rows = books.allocations.rows

theorem same_amounts_iff : SameAmounts books books' ↔ books'.watched = books.watched := by
  refine ⟨fun h => ?_, fun h => ⟨fun documentId => ?_, ?_⟩⟩
  · funext key
    cases key with
    | none => exact congrArg Sum.inr h.allocations
    | some documentId => exact congrArg Sum.inl (h.documents documentId)
  · exact Sum.inl.inj (congrFun h (some documentId))
  · exact Sum.inr.inj (congrFun h none)

theorem reverse_unchanged_iff (kind : Kind) (plan : Plan)
    (firmId settlementId reversalDate : String) (books : Books) :
    (∀ raised books', reverse kind plan firmId settlementId reversalDate books =
      .error raised books' → SameAmounts books books') ↔
      Intact kind plan firmId settlementId books := by
  obtain ⟨after, -, hwatched, hends⟩ :=
    reverse_ends kind plan firmId settlementId reversalDate books
  have hone : ∀ {s s'}, Begins kind plan firmId settlementId books s →
      Begins kind plan firmId settlementId books s' → s' = s :=
    fun h h' => Option.some.inj (h'.1.found.symm.trans h.1.found)
  -- where the call raises, what is watched is unchanged just when no write reaches it
  have hraises : ∀ s, Begins kind plan firmId settlementId books s →
      (∃ raised, reverse kind plan firmId settlementId reversalDate books = .error raised after) →
      ((∀ raised books', reverse kind plan firmId settlementId reversalDate books =
        .error raised books' → SameAmounts books books') ↔
        reaches books.watched (callWrites kind plan firmId settlementId books s) = false) := by
    rintro s hs ⟨raised, herror⟩
    rw [← carry_unchanged_iff (call_writes_nodup kind plan firmId settlementId books s),
      ← hwatched s hs, ← same_amounts_iff, herror]
    constructor
    · intro h
      exact h raised after rfl
    · rintro h raised' books' heq
      cases heq
      exact h
  rcases hends with ⟨hnot, ⟨raised, herror⟩, rfl⟩ | ⟨s, hs, hunanswered, herror⟩ |
    ⟨s, hs, hopen, herror⟩ | ⟨s, hs, hanswered, hcloses, hok⟩
  · refine iff_of_true ?_ (fun s hs => absurd hs (hnot s))
    intro raised' books' heq
    rw [herror] at heq
    cases heq
    exact ⟨fun _ => rfl, rfl⟩
  · rw [hraises s hs herror]
    refine ⟨fun h s' hs' => .inl (hone hs hs' ▸ h), fun h => ?_⟩
    exact (h s hs).resolve_right fun hright => hunanswered hright.1
  · rw [hraises s hs herror]
    refine ⟨fun h s' hs' => .inl (hone hs hs' ▸ h), fun h => ?_⟩
    exact (h s hs).resolve_right fun hright => hopen hright.2
  · refine iff_of_true ?_ (fun s' hs' => .inr ?_)
    · intro raised books' heq
      rw [hok] at heq
      cases heq
    · rw [hone hs hs']
      exact ⟨hanswered, hcloses⟩

/-- Calls on one settlement that all raise, each where nothing it watched was changed. -/
inductive Retried (kind : Kind) (firmId settlementId : String) (books : Books) : Books → Prop where
  | start : Retried kind firmId settlementId books books
  | again {between books' : Books} {plan : Plan} {reversalDate : String} {raised : Failure}
      (h : Retried kind firmId settlementId books between)
      (hintact : Intact kind plan firmId settlementId between)
      (hfailed : reverse kind plan firmId settlementId reversalDate between =
        .error raised books') : Retried kind firmId settlementId books books'

theorem Retried.same (h : Retried kind firmId settlementId books between) :
    SameAmounts books between ∧ between.facts = books.facts := by
  induction h with
  | start => exact ⟨⟨fun _ => rfl, rfl⟩, rfl⟩
  | @again between books' plan reversalDate raised _ hintact hfailed ih =>
    have hsame := (reverse_unchanged_iff kind plan firmId settlementId reversalDate between).mpr
      hintact raised books' hfailed
    obtain ⟨after, hfacts, -, hends⟩ :=
      reverse_ends kind plan firmId settlementId reversalDate between
    have hafter : after = books' := by
      rw [hfailed] at hends
      rcases hends with ⟨-, ⟨_, h⟩, rfl⟩ | ⟨_, -, -, _, h⟩ | ⟨_, -, -, _, h⟩ | ⟨_, -, -, -, h⟩ <;>
        cases h <;> rfl
    refine ⟨?_, (hafter ▸ hfacts).trans ih.2⟩
    rw [same_amounts_iff] at hsame ⊢
    exact hsame.trans (same_amounts_iff.mp ih.1)

/-- What a settlement put on each document: the payable a single bill was relieved of, or the
allocations that still count. -/
def dues (kind : Kind) (books : Books) (firmId settlementId : String)
    (settlement : SettlementRow) : List (String × ℤ × ℤ) :=
  match kind, settlement.documentId with
  | .payment, some billId =>
    let apRelief := books.paymentApRelief firmId settlement.clientId settlementId settlement
    let txnAmount := settlement.txnAmount.getD 0
    if apRelief > 0 ∨ txnAmount > 0 then [(billId, apRelief, txnAmount)] else []
  | _, _ => (books.liveAllocations settlementId).filterMap Allocation.taken

theorem taken_written (title firmId clientId : String) (attempts : ℕ → ℕ → Attempt) (place : ℕ)
    (h : t ∈ List.filterMap Allocation.taken allocations) :
    ∃ own, documentWrite title firmId clientId t.1 t.2.1 t.2.2 own 0 5 ∈
      allocationWrites title firmId clientId attempts place allocations := by
  induction allocations generalizing place with
  | nil => simp at h
  | cons alloc rest ih =>
    unfold allocationWrites
    rw [List.filterMap_cons] at h
    cases htaken : alloc.taken with
    | none =>
      rw [htaken] at h
      obtain ⟨own, hmem⟩ := ih (place + 1) h
      exact ⟨own, List.mem_append_right _ hmem⟩
    | some u =>
      rw [htaken] at h
      rcases List.mem_cons.mp h with rfl | hrest
      · exact ⟨attempts place, List.mem_append_left _ (by simp)⟩
      · obtain ⟨own, hmem⟩ := ih (place + 1) hrest
        exact ⟨own, List.mem_append_right _ hmem⟩

theorem due_written (kind : Kind) (plan : Plan) (books : Books) (firmId settlementId : String)
    (settlement : SettlementRow) (h : t ∈ dues kind books firmId settlementId settlement) :
    ∃ own, documentWrite kind.documentTitle firmId settlement.clientId t.1 t.2.1 t.2.2 own 0 5 ∈
      callWrites kind plan firmId settlementId books settlement := by
  have hloop : ∀ title, t ∈ (books.liveAllocations settlementId).filterMap Allocation.taken →
      ∃ own, documentWrite title firmId settlement.clientId t.1 t.2.1 t.2.2 own 0 5 ∈
        allocationWrites title firmId settlement.clientId plan.attempts 0
          (books.liveAllocations settlementId) ++
        if books.liveAllocations settlementId ≠ [] then [voidWrite plan.void settlementId]
        else [] := by
    intro title ht
    obtain ⟨own, hmem⟩ := taken_written title firmId settlement.clientId plan.attempts 0 ht
    exact ⟨own, List.mem_append_left _ hmem⟩
  cases kind with
  | receipt => exact hloop _ h
  | payment =>
    unfold dues at h
    unfold callWrites
    cases hdoc : settlement.documentId with
    | none =>
      rw [hdoc] at h
      exact hloop _ h
    | some billId =>
      rw [hdoc] at h
      dsimp only at h ⊢
      split at h
      · rename_i hdue
        rw [if_pos hdue]
        obtain rfl := List.mem_singleton.mp h
        exact ⟨plan.attempts 0, by simp [Kind.documentTitle]⟩
      · cases h

theorem not_due_not_written (kind : Kind) (plan : Plan) (books : Books)
    (firmId settlementId : String) (settlement : SettlementRow)
    (h : documentId ∉ (dues kind books firmId settlementId settlement).map fun t => t.1) :
    some documentId ∉
      (callWrites kind plan firmId settlementId books settlement).map Write.key := by
  have hloop : ∀ title,
      documentId ∉ ((books.liveAllocations settlementId).filterMap Allocation.taken).map
        (fun t => t.1) →
      some documentId ∉ (allocationWrites title firmId settlement.clientId plan.attempts 0
          (books.liveAllocations settlementId) ++
        if books.liveAllocations settlementId ≠ [] then [voidWrite plan.void settlementId]
        else []).map Write.key := by
    intro title hnot hmem
    rw [List.map_append, List.mem_append, allocation_writes_keys] at hmem
    rcases hmem with hmem | hmem
    · obtain ⟨t, ht, heq⟩ := List.mem_map.mp hmem
      exact hnot (List.mem_map.mpr ⟨t, ht, Option.some.inj heq⟩)
    · split at hmem
      · simp [voidWrite] at hmem
      · cases hmem
  cases kind with
  | receipt => exact hloop _ h
  | payment =>
    unfold dues at h
    unfold callWrites
    cases hdoc : settlement.documentId with
    | none =>
      rw [hdoc] at h
      exact hloop _ h
    | some billId =>
      rw [hdoc] at h
      dsimp only at h ⊢
      split at h
      · rename_i hdue
        rw [if_pos hdue]
        simpa using h
      · rename_i hdue
        rw [if_neg hdue]
        simp

/-- What a settlement put on its documents is a matter of its facts and its allocations. -/
theorem dues_congr (kind : Kind) (firmId settlementId : String)
    (hsame : between.allocations.rows = books.allocations.rows)
    (hfx : between.fxAdjustments = books.fxAdjustments)
    (hfacts : SettlementRow.facts s = SettlementRow.facts s') :
    dues kind between firmId settlementId s' = dues kind books firmId settlementId s := by
  simp only [SettlementRow.facts, SettlementRow.mk.injEq] at hfacts
  obtain ⟨-, hclient, -, -, hdoc, hamount, htxn⟩ := hfacts
  have hrelief : between.paymentApRelief firmId s'.clientId settlementId s' =
      books.paymentApRelief firmId s.clientId settlementId s := by
    unfold Books.paymentApRelief
    rw [hfx, hclient, hamount]
  have hlive : between.liveAllocations settlementId = books.liveAllocations settlementId := by
    unfold Books.liveAllocations
    rw [hsame]
  unfold dues
  rw [hrelief, hlive, hdoc, htxn]

/-- A call that goes through takes each due off its document, once, and nothing off any other. -/
theorem reverse_takes (hok : reverse kind plan firmId settlementId reversalDate books =
    .ok () books') :
    ∃ settlement, books.settlements settlementId = some settlement ∧
      (∀ t ∈ dues kind books firmId settlementId settlement, ∀ a,
        (books.documents t.1).map DocumentHeader.amounts = some a →
        (books'.documents t.1).map DocumentHeader.amounts =
          some (if a.ownedBy firmId settlement.clientId then a.reverted t.2.1 t.2.2 else a)) ∧
      (∀ documentId,
        documentId ∉ (dues kind books firmId settlementId settlement).map (fun t => t.1) →
        (books'.documents documentId).map DocumentHeader.amounts =
          (books.documents documentId).map DocumentHeader.amounts) := by
  obtain ⟨after, -, hwatched, hends⟩ :=
    reverse_ends kind plan firmId settlementId reversalDate books
  rw [hok] at hends
  rcases hends with ⟨-, ⟨_, h⟩, rfl⟩ | ⟨_, -, -, _, h⟩ | ⟨_, -, -, _, h⟩ |
    ⟨settlement, hbegins, hanswered, -, h⟩
  · cases h
  · cases h
  · cases h
  cases h
  have hkeys := call_writes_nodup kind plan firmId settlementId books settlement
  have hview := hwatched settlement hbegins
  refine ⟨settlement, hbegins.1.found, ?_, ?_⟩
  · intro t ht a ha
    obtain ⟨own, hmem⟩ := due_written kind plan books firmId settlementId settlement ht
    have hplace := carry_completed hkeys ((carry_completed_iff hkeys).mpr hanswered) hmem
    rw [← hview, document_write_key] at hplace
    have hsum : (Sum.inl ((books'.documents t.1).map DocumentHeader.amounts) : Watched) =
        .inl (some (if a.ownedBy firmId settlement.clientId then a.reverted t.2.1 t.2.2 else a)) := by
      refine hplace.trans ?_
      unfold Books.watched documentWrite
      dsimp only
      rw [ha]
      rfl
    exact Sum.inl.inj hsum
  · intro documentId hnot
    have hkept := carry_other (v := books.watched)
      (not_due_not_written kind plan books firmId settlementId settlement hnot)
    rw [← hview] at hkept
    exact Sum.inl.inj hkept

/-- A call that raises leaves paid amounts and allocations alone exactly when it is intact; and
where every failed call is, the one that succeeds takes each due off its document once. -/
theorem reversal_atomic_iff (kind : Kind) (firmId settlementId : String) :
    (∀ plan reversalDate books,
      (∀ raised books', reverse kind plan firmId settlementId reversalDate books =
        .error raised books' → SameAmounts books books') ↔
        Intact kind plan firmId settlementId books) ∧
    ∀ books between books' plan reversalDate, Retried kind firmId settlementId books between →
      reverse kind plan firmId settlementId reversalDate between = .ok () books' →
      ∃ settlement, books.settlements settlementId = some settlement ∧
        (∀ t ∈ dues kind books firmId settlementId settlement, ∀ a,
          (books.documents t.1).map DocumentHeader.amounts = some a →
          (books'.documents t.1).map DocumentHeader.amounts =
            some (if a.ownedBy firmId settlement.clientId then a.reverted t.2.1 t.2.2 else a)) ∧
        (∀ documentId,
          documentId ∉ (dues kind books firmId settlementId settlement).map (fun t => t.1) →
          (books'.documents documentId).map DocumentHeader.amounts =
            (books.documents documentId).map DocumentHeader.amounts) := by
  refine ⟨fun plan reversalDate books => reverse_unchanged_iff _ _ _ _ _ _, ?_⟩
  intro books between books' plan reversalDate hretried hok
  obtain ⟨⟨hdocuments, hallocations⟩, hfacts⟩ := hretried.same
  obtain ⟨held, hheld, htaken, huntouched⟩ := reverse_takes hok
  have hrow : (books.settlements settlementId).map SettlementRow.facts =
      some held.facts := by
    have hfact : (between.settlements settlementId).map SettlementRow.facts =
        (books.settlements settlementId).map SettlementRow.facts :=
      congrFun (congrArg Prod.fst hfacts) settlementId
    rw [← hfact, hheld]
    rfl
  obtain ⟨settlement, hsettlement, hsame⟩ := Option.map_eq_some_iff.mp hrow
  have hfx : between.fxAdjustments = books.fxAdjustments := congrArg Prod.snd hfacts
  have hdues : dues kind between firmId settlementId held =
      dues kind books firmId settlementId settlement :=
    dues_congr kind firmId settlementId hallocations hfx hsame
  have hclient : settlement.clientId = held.clientId := by
    simp only [SettlementRow.facts, SettlementRow.mk.injEq] at hsame
    exact hsame.2.1
  rw [hdues] at htaken huntouched
  refine ⟨settlement, hsettlement, ?_, ?_⟩
  · intro t ht a ha
    rw [hclient]
    exact htaken t ht a ((hdocuments t.1).trans ha)
  · intro documentId hnot
    exact (huntouched documentId hnot).trans (hdocuments documentId)

def stateAfter (r : EStateM.Result Failure Books Unit) : Books :=
  match r with
  | .ok _ books | .error _ books => books

def raisedBy (r : EStateM.Result Failure Books Unit) : Option Failure :=
  match r with
  | .ok _ _ => none
  | .error raised _ => some raised

def paidOn (documentId : String) (books : Books) : Option ℤ :=
  (books.documents documentId).map DocumentHeader.paidPaise

theorem raised_by_some (h : raisedBy r = some raised) : r = .error raised (stateAfter r) := by
  cases r with
  | ok a books => cases h
  | error e books =>
    cases h
    rfl

theorem raised_by_none (h : raisedBy r = none) : r = .ok () (stateAfter r) := by
  cases r with
  | ok a books => rfl
  | error e books => cases h

/-- A receipt to two invoices, the first of which another receipt was paid on as well. -/
def twoInvoices : Books where
  documents id :=
    if id = "A" then some ⟨"firm", "client", 500, 0, 0, 300, 0, .partiallyPaid⟩
    else if id = "B" then some ⟨"firm", "client", 200, 0, 0, 200, 0, .paid⟩
    else none
  allocations := ⟨[⟨"r", some "A", 100, none, false⟩, ⟨"r", some "B", 200, none, false⟩], by decide⟩
  settlements id :=
    if id = "r" then some ⟨"firm", "client", false, some "je", none, 300, none⟩ else none
  fxAdjustments := []
  entries := [⟨"je", "firm", "client", "2025-05-01", "RCPT-1", true, none,
    [⟨"bank", 300, 0⟩, ⟨"debtors", 0, 300⟩]⟩]

/-- The first call finds the invoice's allocations unread, and the second goes through. -/
theorem reversal_retried :
    ∃ between books', reverse .receipt { allocations := some .fault } "firm" "r" "2025-06-01"
        twoInvoices = .error .fault between ∧
      reverse .receipt {} "firm" "r" "2025-06-01" between = .ok () books' ∧
      paidOn "A" books' = some 200 ∧ paidOn "B" books' = some 0 := by
  let unread : Plan := { allocations := some .fault }
  let first := reverse .receipt unread "firm" "r" "2025-06-01" twoInvoices
  let retry := reverse .receipt {} "firm" "r" "2025-06-01" (stateAfter first)
  have hfirst : first = .error .fault (stateAfter first) := raised_by_some (by decide +kernel)
  have hretry : retry = .ok () (stateAfter retry) := raised_by_none (by decide +kernel)
  have hintact : Intact .receipt unread "firm" "r" twoInvoices := by
    rintro settlement ⟨-, hread⟩
    cases hread
  obtain ⟨settlement, hrow, htaken, -⟩ := (reversal_atomic_iff .receipt "firm" "r").2 twoInvoices
    (stateAfter first) (stateAfter retry) {} "2025-06-01" (.again .start hintact hfirst) hretry
  have hsettlement : settlement = ⟨"firm", "client", false, some "je", none, 300, none⟩ :=
    Option.some.inj (hrow.symm.trans (by decide +kernel))
  subst hsettlement
  have hA := htaken ("A", 100, 0) (by decide +kernel) ⟨"firm", "client", 300, 0⟩ (by decide +kernel)
  have hB := htaken ("B", 200, 0) (by decide +kernel) ⟨"firm", "client", 200, 0⟩ (by decide +kernel)
  refine ⟨_, _, hfirst, hretry, ?_, ?_⟩
  · have hpaid := congrArg (Option.map Amounts.paidPaise) hA
    rw [Option.map_map] at hpaid
    exact hpaid
  · have hpaid := congrArg (Option.map Amounts.paidPaise) hB
    rw [Option.map_map] at hpaid
    exact hpaid

/-- Other writers are there first each time the second invoice is written. -/
def contested : Plan where
  attempts place _ := if place = 1 then ⟨none, .beaten⟩ else ⟨none, .matched⟩

theorem reversal_taken_twice :
    let first := reverse .receipt contested "firm" "r" "2025-06-01" twoInvoices
    let retry := reverse .receipt {} "firm" "r" "2025-06-01" (stateAfter first)
    raisedBy first =
        some (.http 409 "Invoice B is being updated concurrently — please retry.") ∧
      ¬ SameAmounts twoInvoices (stateAfter first) ∧
      raisedBy retry = none ∧
      paidOn "A" twoInvoices = some 300 ∧ paidOn "A" (stateAfter first) = some 200 ∧
      paidOn "A" (stateAfter retry) = some 100 := by
  intro first retry
  refine ⟨by decide +kernel, ?_, by decide +kernel, by decide +kernel, by decide +kernel,
    by decide +kernel⟩
  intro hsame
  have hpaid := congrArg (Option.map Amounts.paidPaise) (hsame.documents "A")
  revert hpaid
  decide +kernel

end Caflow.Settlement
