import Caflow.Settlement.Reversal

set_option linter.all false

namespace Caflow.Settlement
open Interrupted

/-- What a document is paid, and whose it is. -/
structure Amounts where
  firmId : String
  clientId : String
  paidPaise : ℤ
  paidTxn : ℤ
  deriving DecidableEq

def DocumentHeader.amounts (header : DocumentHeader) : Amounts :=
  ⟨header.firmId, header.clientId, header.paidPaise, header.paidTxn⟩

def Amounts.reverted (amounts : Amounts) (amountPaise txnAmount : ℤ) : Amounts where
  firmId := amounts.firmId
  clientId := amounts.clientId
  paidPaise := max (amounts.paidPaise - amountPaise) 0
  paidTxn := max (amounts.paidTxn - txnAmount) 0

/-- What is watched while a call runs: the paid amounts of each document, and the allocations. -/
abbrev Watched := Option Amounts ⊕ List Allocation

def Books.watched (books : Books) : Option String → Watched
  | some documentId => .inl ((books.documents documentId).map DocumentHeader.amounts)
  | none => .inr books.allocations.rows

/-- The tables beside. -/
def Books.beside (books : Books) :
    (String → Option SettlementRow) × List FxAdjustment × List LedgerEntry :=
  (books.settlements, books.fxAdjustments, books.entries)

section
variable (title firmId clientId documentId : String) (amountPaise txnAmount : ℤ)
  (attempts : ℕ → Attempt)

def Amounts.ownedBy (amounts : Amounts) : Bool :=
  amounts.firmId = firmId ∧ amounts.clientId = clientId

/-- What becomes of a rollback: its document is found or not, and the attempts fall as they fall. -/
def rollbackOutcome (found : Bool) (attempt : ℕ) : ℕ → Outcome Failure
  | 0 => .refused (.http 409
      (title ++ " " ++ documentId ++ " is being updated concurrently — please retry."))
  | retries + 1 =>
    match (attempts attempt).read with
    | some failure => .refused failure
    | none =>
      if found = false then .done
      else
        match (attempts attempt).write with
        | .matched => .done
        | .refused failure => .refused failure
        | .lost => .lost .fault
        | .beaten => rollbackOutcome found (attempt + 1) retries

/-- A rollback as a write to its document. -/
def documentWrite (attempt retries : ℕ) : Write Failure (Option String) Watched where
  key := some documentId
  change
    | .inl amounts => .inl (amounts.map fun a =>
        if a.ownedBy firmId clientId then a.reverted amountPaise txnAmount else a)
    | .inr rows => .inr rows
  outcome
    | .inl amounts => rollbackOutcome title documentId attempts
        (amounts.any (Amounts.ownedBy firmId clientId)) attempt retries
    | .inr _ => .done

end

@[simp] theorem document_write_key : (documentWrite title firmId clientId documentId amountPaise
    txnAmount attempts attempt retries).key = some documentId := rfl

theorem watched_write_document (books : Books) (documentId : String) (header : DocumentHeader) :
    (books.writeDocument documentId header).watched =
      Function.update books.watched (some documentId) (.inl (some header.amounts)) := by
  funext key
  cases key with
  | none => rfl
  | some d =>
    unfold Books.watched Books.writeDocument
    by_cases h : d = documentId
    · subst d
      simp
    · simp [h]

section
variable (statusOf : DocumentHeader → ℤ → DocumentStatus)
  (title firmId clientId documentId : String) (amountPaise txnAmount : ℤ)
  (attempts : ℕ → Attempt) (attempt retries : ℕ)

/-- The header a rollback finds. -/
def Books.ownHeader (books : Books) : Option DocumentHeader :=
  (books.documents documentId).filter (fun h => h.firmId = firmId ∧ h.clientId = clientId)

theorem rollback_unread {books : Books} (h : (attempts attempt).read = some raised) :
    rollbackFrom statusOf title firmId clientId documentId amountPaise txnAmount attempts attempt
      (retries + 1) books = .error raised books := by
  unfold rollbackFrom
  rw [h]
  rfl

theorem rollback_missing {books : Books} (h : (attempts attempt).read = none)
    (hnone : books.ownHeader firmId clientId documentId = none) :
    rollbackFrom statusOf title firmId clientId documentId amountPaise txnAmount attempts attempt
      (retries + 1) books = .ok () books := by
  unfold rollbackFrom
  rw [h, bind_ok (show answer none books = .ok () books from rfl),
    bind_ok (show (get : Call Books) books = .ok books books from rfl)]
  unfold Books.ownHeader at hnone
  rw [hnone]
  rfl

theorem rollback_found {books : Books} (h : (attempts attempt).read = none)
    (hsome : books.ownHeader firmId clientId documentId = some header) :
    rollbackFrom statusOf title firmId clientId documentId amountPaise txnAmount attempts attempt
      (retries + 1) books =
      match (attempts attempt).write with
      | .matched => .ok ()
          (books.writeDocument documentId (header.reverted statusOf amountPaise txnAmount))
      | .refused failure => .error failure books
      | .lost => .error .fault
          (books.writeDocument documentId (header.reverted statusOf amountPaise txnAmount))
      | .beaten =>
        rollbackFrom statusOf title firmId clientId documentId amountPaise txnAmount attempts
          (attempt + 1) retries books := by
  rw [rollbackFrom, h, bind_ok (show answer none books = .ok () books from rfl),
    bind_ok (show (get : Call Books) books = .ok books books from rfl)]
  unfold Books.ownHeader at hsome
  rw [hsome]
  cases (attempts attempt).write <;> rfl

theorem document_write_missing {books : Books}
    (hnone : books.ownHeader firmId clientId documentId = none) :
    (documentWrite title firmId clientId documentId amountPaise txnAmount attempts attempt
      retries).applied books.watched = books.watched := by
  apply applied_unchanged
  unfold documentWrite Books.watched
  dsimp only
  unfold Books.ownHeader at hnone
  cases hdoc : books.documents documentId with
  | none => rfl
  | some header =>
    have hown : ¬ (header.firmId = firmId ∧ header.clientId = clientId) := by
      simpa [hdoc] using hnone
    simp [Amounts.ownedBy, DocumentHeader.amounts, hown]

theorem document_write_found {books : Books}
    (hsome : books.ownHeader firmId clientId documentId = some header) :
    (documentWrite title firmId clientId documentId amountPaise txnAmount attempts attempt
      retries).applied books.watched =
      (books.writeDocument documentId
        (header.reverted statusOf amountPaise txnAmount)).watched := by
  obtain ⟨hdoc, hown⟩ := Option.filter_eq_some_iff.mp hsome
  rw [watched_write_document]
  unfold Write.applied documentWrite
  dsimp only
  congr 1
  simp only [Books.watched, hdoc, Option.map_some]
  have howned : header.amounts.ownedBy firmId clientId = true := hown
  rw [if_pos howned]
  rfl

theorem document_write_outcome (books : Books) :
    (documentWrite title firmId clientId documentId amountPaise txnAmount attempts attempt
      retries).outcome (books.watched (some documentId)) =
      rollbackOutcome title documentId attempts
        (books.ownHeader firmId clientId documentId).isSome attempt retries := by
  unfold documentWrite Books.watched Books.ownHeader
  dsimp only
  cases books.documents documentId with
  | none => rfl
  | some header =>
    have howned : header.amounts.ownedBy firmId clientId =
        decide (header.firmId = firmId ∧ header.clientId = clientId) := rfl
    simp only [Option.map_some, Option.any_some, howned, Option.filter_some]
    by_cases hown : header.firmId = firmId ∧ header.clientId = clientId
    · rw [if_pos (decide_eq_true hown), decide_eq_true hown]
      rfl
    · rw [if_neg (by simpa using hown), decide_eq_false hown]
      rfl

/-- The loop of a rollback is a write to its document. -/
theorem rollback_performs :
    Performs Books.watched Books.beside
      (rollbackFrom statusOf title firmId clientId documentId amountPaise txnAmount attempts
        attempt retries)
      [documentWrite title firmId clientId documentId amountPaise txnAmount attempts
        attempt retries] := by
  apply performs_one
  intro books
  unfold DoesFrom
  rw [document_write_key]
  rw [document_write_outcome]
  induction retries generalizing attempt with
  | zero => exact ⟨books, rfl, rfl, rfl⟩
  | succ retries ih =>
    unfold rollbackOutcome
    cases hread : (attempts attempt).read with
    | some failure =>
      exact ⟨books, rollback_unread statusOf title firmId clientId documentId amountPaise txnAmount
        attempts attempt retries hread, rfl, rfl⟩
    | none =>
      cases hown : books.ownHeader firmId clientId documentId with
      | none =>
        refine ⟨books, rollback_missing statusOf title firmId clientId documentId amountPaise
          txnAmount attempts attempt retries hread hown, ?_, rfl⟩
        exact (document_write_missing title firmId clientId documentId amountPaise txnAmount
          attempts attempt (retries + 1) hown).symm
      | some header =>
        have hrun := rollback_found statusOf title firmId clientId documentId amountPaise txnAmount
          attempts attempt retries hread hown
        have hwritten := document_write_found statusOf title firmId clientId documentId amountPaise
          txnAmount attempts attempt (retries + 1) hown
        rw [hrun]
        cases hwrite : (attempts attempt).write with
        | matched => exact ⟨_, rfl, hwritten.symm, rfl⟩
        | refused failure => exact ⟨books, rfl, rfl, rfl⟩
        | lost => exact ⟨_, rfl, hwritten.symm, rfl⟩
        | beaten =>
          have hnext := ih (attempt + 1)
          rw [hown] at hnext
          exact hnext

end

/-- What the loop over allocations writes. -/
def allocationWrites (title firmId clientId : String) (attempts : ℕ → ℕ → Attempt) :
    ℕ → List Allocation → List (Write Failure (Option String) Watched)
  | _, [] => []
  | place, alloc :: rest =>
    (match alloc.taken with
      | some (documentId, paise, txn) =>
        [documentWrite title firmId clientId documentId paise txn (attempts place) 0 5]
      | none => []) ++
    allocationWrites title firmId clientId attempts (place + 1) rest

theorem undo_performs {rollback : String → ℤ → ℤ → (ℕ → Attempt) → Call Unit}
    (hrollback : ∀ documentId paise txn attempts, Performs Books.watched Books.beside
      (rollback documentId paise txn attempts)
      [documentWrite title firmId clientId documentId paise txn attempts 0 5])
    (attempts : ℕ → ℕ → Attempt) (place : ℕ) (allocations : List Allocation) :
    Performs Books.watched Books.beside (undoAllocations rollback attempts place allocations)
      (allocationWrites title firmId clientId attempts place allocations) := by
  induction allocations generalizing place with
  | nil => exact performs_nothing
  | cons alloc rest ih =>
    unfold undoAllocations allocationWrites
    cases alloc.taken with
    | none => exact performs_nothing.andThen (ih (place + 1))
    | some taken => exact (hrollback _ _ _ _).andThen (ih (place + 1))

def voidRow (settlementId : String) (alloc : Allocation) : Allocation :=
  if alloc.settlementId = settlementId then { alloc with isVoided := true } else alloc

/-- Voiding as a write to the allocations. -/
def voidWrite (void : Outcome Failure) (settlementId : String) :
    Write Failure (Option String) Watched where
  key := none
  change
    | .inl amounts => .inl amounts
    | .inr rows => .inr (rows.map (voidRow settlementId))
  outcome _ := void

theorem void_performs (void : Outcome Failure) (settlementId : String) :
    Performs Books.watched Books.beside (statement void (Books.voidAllocations settlementId))
      [voidWrite void settlementId] := by
  apply performs_statement
  · intro books
    funext key
    cases key with
    | none => rw [Function.update_self]; rfl
    | some d => rw [Function.update_of_ne (by simp)]; rfl
  · intro books
    rfl

def Kind.documentTitle : Kind → String
  | .receipt => "Invoice"
  | .payment => "Bill"

/-- What a call writes before it comes to the journal. -/
def callWrites (kind : Kind) (plan : Plan) (firmId settlementId : String) (books : Books)
    (settlement : SettlementRow) : List (Write Failure (Option String) Watched) :=
  match kind, settlement.documentId with
  | .payment, some billId =>
    let apRelief := books.paymentApRelief firmId settlement.clientId settlementId settlement
    let txnAmount := settlement.txnAmount.getD 0
    if apRelief > 0 ∨ txnAmount > 0 then
      [documentWrite "Bill" firmId settlement.clientId billId apRelief txnAmount
        (plan.attempts 0) 0 5]
    else []
  | kind, _ =>
    let allocations := books.liveAllocations settlementId
    allocationWrites kind.documentTitle firmId settlement.clientId plan.attempts 0 allocations ++
      if allocations ≠ [] then [voidWrite plan.void settlementId] else []

theorem allocation_writes_keys (title firmId clientId : String) (attempts : ℕ → ℕ → Attempt)
    (place : ℕ) (allocations : List Allocation) :
    (allocationWrites title firmId clientId attempts place allocations).map Write.key =
      (allocations.filterMap Allocation.taken).map fun t => some t.1 := by
  induction allocations generalizing place with
  | nil => rfl
  | cons alloc rest ih =>
    rw [allocationWrites, List.map_append, ih, List.filterMap_cons]
    cases alloc.taken <;> rfl

theorem taken_document (h : Allocation.taken alloc = some t) : alloc.documentId = some t.1 := by
  unfold Allocation.taken at h
  dsimp only at h
  split at h
  · rename_i documentId hdoc
    split at h
    · cases h
      exact hdoc
    · cases h
  · cases h

/-- A settlement has one allocation to a document. -/
theorem live_documents_nodup (books : Books) (settlementId : String) :
    (((books.liveAllocations settlementId).filterMap Allocation.taken).map
      fun t => t.1).Nodup := by
  have hrows : (books.liveAllocations settlementId).Pairwise
      (fun a b => a.documentId ≠ b.documentId) := by
    have hunique := books.allocations.unique
    rw [List.Nodup, List.pairwise_map] at hunique
    unfold Books.liveAllocations
    rw [List.pairwise_filter]
    refine hunique.imp ?_
    intro a b hne ha hb hdoc
    simp only [decide_eq_true_eq] at ha hb
    exact hne (Prod.ext (ha.1.trans hb.1.symm) hdoc)
  rw [List.Nodup, List.pairwise_map, List.pairwise_filterMap]
  refine hrows.imp ?_
  intro a b hne t ht u hu htu
  exact hne (by rw [taken_document ht, taken_document hu, htu])

theorem call_writes_nodup (kind : Kind) (plan : Plan) (firmId settlementId : String)
    (books : Books) (settlement : SettlementRow) :
    ((callWrites kind plan firmId settlementId books settlement).map Write.key).Nodup := by
  have hloop : ∀ title, ((allocationWrites title firmId settlement.clientId plan.attempts 0
      (books.liveAllocations settlementId) ++
      if books.liveAllocations settlementId ≠ [] then [voidWrite plan.void settlementId]
      else []).map Write.key).Nodup := by
    intro title
    rw [List.map_append, List.nodup_append]
    refine ⟨?_, by split <;> simp, ?_⟩
    · rw [allocation_writes_keys]
      have hnodup := live_documents_nodup books settlementId
      have hsome := hnodup.map (Option.some_injective String)
      rwa [List.map_map] at hsome
    · intro a ha b hb hab
      rw [allocation_writes_keys] at ha
      obtain ⟨t, -, rfl⟩ := List.mem_map.mp ha
      split at hb
      · have hnone : b = none := by simpa [voidWrite] using hb
        rw [hnone] at hab
        cases hab
      · cases hb
  unfold callWrites
  split
  · dsimp only
    split <;> simp
  · exact hloop _

end Caflow.Settlement
