import Caflow.Accounting.Journal
import Caflow.Text
import Caflow.Lib.Interrupted

namespace Caflow

/-- The most rows the database answers one read with. It cuts the rest off without a word. -/
def rowCap : ℕ := 1000

/-- A read that does not page. -/
def unpaged (rows : List α) : List α := rows.take rowCap

theorem unpaged_whole {rows : List α} (h : rows.length ≤ rowCap) : unpaged rows = rows :=
  List.take_of_length_le h

end Caflow

namespace Caflow.Accounting.Kernel
open Text Interrupted

/-- A row of `journal_entries` with its lines. -/
structure Entry where
  id : String
  entryDate : String
  referenceNo : String
  entryType : String
  isPosted : Bool
  isReversed : Bool
  sourceType : Option String
  sourceId : Option String
  reversalOf : Option String
  lines : List JournalLine
  deriving DecidableEq

/-- What a caller hands the kernel. `mustMatch` names a document whose retry may reuse an entry. -/
structure Posting where
  entryDate : String
  referenceNo : String
  entryType : String
  lines : List JournalLine
  isPosted : Bool
  sourceType : Option String
  sourceId : Option String
  mustMatch : Option String

/-- What the kernel stands on: the ids the database draws, and the dates that cannot be read or
are closed. -/
structure Ground where
  ids : ℕ ↪ String
  refusal : String → Option Failure

/-- Ids drawn in order, and every date open. -/
def Ground.plain : Ground where
  ids := ⟨fun n => String.ofList (List.replicate n 'e'), fun n m h => by
    have hlength := congrArg (fun s : String => s.toList.length) h
    simpa using hlength⟩
  refusal := fun _ => none

/-- What becomes of one call: whether its lookup is answered, and its one write. -/
structure Link where
  readable : Bool
  written : Outcome Failure

def Link.sound : Link := ⟨true, .done⟩

/-- The lines as (account, debit, credit); a line with nothing on either side is not one. -/
def figuresOf (lines : List JournalLine) : List (String × ℤ × ℤ) :=
  (lines.map fun l => (l.account, l.debitPaise, l.creditPaise)).filter
    (fun f => ¬ (f.2.1 = 0 ∧ f.2.2 = 0))

def whatNext : String :=
  "A Partner can reverse that entry from the ledger so the invoice can be posted afresh; if it is " ++
    "still a draft, it can instead be put back to what it was."

/-- Nothing when an entry carries exactly the figures being posted, in any order. -/
def difference (existing proposed : List JournalLine) (what : String) : Option String :=
  let held := figuresOf existing
  let wanted := figuresOf proposed
  if held.Perm wanted then none
  else
    let heldTotal := (held.map fun f => f.2.1).sum
    let wantedTotal := (wanted.map fun f => f.2.1).sum
    let how :=
      if heldTotal ≠ wantedTotal then
        "The entry in the ledger totals " ++ rupeeText heldTotal ++ " and " ++ what ++
          " now comes to " ++ rupeeText wantedTotal ++ "."
      else
        "The entry in the ledger and " ++ what ++ " both total " ++ rupeeText heldTotal ++
          ", but not in the same lines."
    some ("An entry for " ++ what ++ " on this date is already in the ledger and it does not carry " ++
      "the figures " ++ what ++ " has now. It may have been left by an earlier issue that did not " ++
      "finish. " ++ how ++ " Nothing was changed. " ++ whatNext)

/-- An entry of the document that is held under another number or date. -/
def elsewhere (what number date : String) : String :=
  "An entry for " ++ what ++ " is already in the ledger, left by an earlier issue that did not " ++
    "finish, but under number " ++ number ++ " dated " ++ date ++ ", which is not the number and " ++
    "date " ++ what ++ " has now. Posting it again would count it twice. Nothing was changed. " ++
    whatNext

def unreadable (what : String) : String :=
  "The ledger could not be checked just now for an earlier entry of " ++ what ++
    ", so nothing was done. Nothing was changed. Try again in a moment."

/-- An entry stands under a number and a date unless it was reversed. -/
def Entry.LiveAt (entry : Entry) (referenceNo entryDate : String) : Prop :=
  entry.referenceNo = referenceNo ∧ entry.entryDate = entryDate ∧ entry.isReversed = false

instance (entry : Entry) (referenceNo entryDate : String) :
    Decidable (entry.LiveAt referenceNo entryDate) :=
  inferInstanceAs (Decidable (_ ∧ _ ∧ _))

/-- The entry whose source is this document, if it stands and is no reversal. -/
def liveEntryOfSource (entries : List Entry) (sourceType : Option String) (sourceId : String)
    (entryType : String) : Option Entry :=
  entries.find? fun e => e.sourceId = some sourceId ∧ e.isReversed = false ∧ e.reversalOf = none ∧
    (sourceType = none ∨ e.sourceType = sourceType) ∧ e.entryType = entryType

/-- The id of the entry that answers for a posting's number and date. -/
def liveEntryFor (entries : List Entry) (posting : Posting) (readable : Bool) :
    Except Failure (Option String) :=
  if posting.referenceNo = "" then .ok none
  else if readable = false then
    match posting.mustMatch with
    | some what => .error (.valueError (unreadable what))
    -- the unique index stands behind a lookup that fails
    | none => .ok none
  else match entries.find? (fun e => e.LiveAt posting.referenceNo posting.entryDate) with
    | some e =>
      match posting.mustMatch.bind (difference e.lines posting.lines) with
      | some problem => .error (.valueError problem)
      | none => .ok (some e.id)
    | none =>
      match posting.mustMatch, posting.sourceId with
      | some what, some sourceId =>
        match liveEntryOfSource entries posting.sourceType sourceId posting.entryType with
        | some held => .error (.valueError (elsewhere what held.referenceNo held.entryDate))
        | none => .ok none
      | _, _ => .ok none

/-- The row a posting becomes. -/
def Posting.entry (posting : Posting) (id : String) (reversalOf : Option String) : Entry where
  id := id
  entryDate := posting.entryDate
  referenceNo := posting.referenceNo
  entryType := posting.entryType
  isPosted := posting.isPosted
  isReversed := false
  sourceType := posting.sourceType
  sourceId := posting.sourceId
  reversalOf := reversalOf
  lines := posting.lines

/-- A reversal stamps its original. -/
def stamp (reversalOf : Option String) (entry : Entry) : Entry :=
  if reversalOf = some entry.id then { entry with isReversed := true } else entry

/-- `post_journal_atomic`: header, lines and stamp in one transaction. The index keeps one live
entry under a number and a date, and the oldest one there answers for a second. -/
def postAtomic (ids : ℕ ↪ String) (entries : List Entry) (posting : Posting)
    (reversalOf : Option String) : List Entry × Option String :=
  if entries.any (fun e => e.LiveAt posting.referenceNo posting.entryDate) then
    (entries, (entries.find? fun e =>
      e.referenceNo = posting.referenceNo ∧ e.entryDate = posting.entryDate).map Entry.id)
  else
    let id := ids entries.length
    ((entries ++ [posting.entry id reversalOf]).map (stamp reversalOf), some id)

/-- The posting kernel, with what it answers and the entries it leaves. -/
def createJournal (ground : Ground) (link : Link) (entries : List Entry) (posting : Posting)
    (reversalOf : Option String) : Except Failure String × List Entry :=
  if totalDebit posting.lines ≠ totalCredit posting.lines then
    (.error (.valueError ("Journal imbalance: debit=" ++ toString (totalDebit posting.lines) ++
      " credit=" ++ toString (totalCredit posting.lines) ++ " for ref=" ++ posting.referenceNo)),
      entries)
  else if totalDebit posting.lines = 0 then
    (.error (.valueError ("Refusing to post a zero-value journal entry for ref=" ++
      posting.referenceNo)), entries)
  else match ground.refusal posting.entryDate with
    | some refused => (.error refused, entries)
    | none =>
      match liveEntryFor entries posting link.readable with
      | .error raised => (.error raised, entries)
      | .ok (some id) => (.ok id, entries)
      | .ok none =>
        let next := postAtomic ground.ids entries posting reversalOf
        match link.written with
        | .refused raised => (.error raised, entries)
        | .lost raised => (.error raised, next.1)
        | .done =>
          match next.2 with
          | some id => (.ok id, next.1)
          | none => (.error (.valueError ("Failed to post journal for ref=" ++ posting.referenceNo)),
              next.1)

/-- What is posted has been checked: it balances, and it moves something. -/
structure Posting.Sound (posting : Posting) : Prop where
  balanced : totalDebit posting.lines = totalCredit posting.lines
  moves : totalDebit posting.lines ≠ 0

section
variable {ground : Ground} {link : Link} {entries : List Entry} {posting : Posting}
  {reversalOf : Option String}

theorem stamp_lines (reversalOf : Option String) (e : Entry) : (stamp reversalOf e).lines = e.lines := by
  unfold stamp
  split <;> rfl

theorem post_atomic_cases (ids : ℕ ↪ String) (entries : List Entry) (posting : Posting)
    (reversalOf : Option String) :
    (∃ e ∈ entries, e.LiveAt posting.referenceNo posting.entryDate ∧
      (postAtomic ids entries posting reversalOf).1 = entries) ∨
    (∀ e ∈ entries, ¬ e.LiveAt posting.referenceNo posting.entryDate) ∧
      postAtomic ids entries posting reversalOf =
        ((entries ++ [posting.entry (ids entries.length) reversalOf]).map (stamp reversalOf),
          some (ids entries.length)) := by
  unfold postAtomic
  split
  · rename_i h
    obtain ⟨e, he, hlive⟩ := List.any_eq_true.mp h
    exact .inl ⟨e, he, of_decide_eq_true hlive, rfl⟩
  · rename_i h
    refine .inr ⟨fun e he hlive => h ?_, rfl⟩
    exact List.any_eq_true.mpr ⟨e, he, decide_eq_true hlive⟩

/-- What one call of the kernel does to the entries: nothing, or it adds its own where none is
live under its number and date. -/
theorem create_journal_entries (ground : Ground) (link : Link) (entries : List Entry)
    (posting : Posting) (reversalOf : Option String) :
    (createJournal ground link entries posting reversalOf).2 = entries ∨
      posting.Sound ∧ (∀ e ∈ entries, ¬ e.LiveAt posting.referenceNo posting.entryDate) ∧
        (createJournal ground link entries posting reversalOf).2 =
          (entries ++ [posting.entry (ground.ids entries.length) reversalOf]).map
            (stamp reversalOf) := by
  unfold createJournal
  split_ifs with hbalanced hzero
  · exact .inl rfl
  · exact .inl rfl
  · have hsound : posting.Sound := ⟨not_not.mp hbalanced, hzero⟩
    have hpost := post_atomic_cases ground.ids entries posting reversalOf
    split
    · exact .inl rfl
    · split
      · exact .inl rfl
      · exact .inl rfl
      · dsimp only
        split
        · exact .inl rfl
        · rcases hpost with ⟨e, -, -, hkeep⟩ | ⟨hfresh, hadd⟩
          · exact .inl hkeep
          · exact .inr ⟨hsound, hfresh, by rw [hadd]⟩
        · rcases hpost with ⟨e, -, -, hkeep⟩ | ⟨hfresh, hadd⟩
          · left
            split <;> exact hkeep
          · right
            refine ⟨hsound, hfresh, ?_⟩
            rw [hadd]

/-- Where nothing is live under its number and date, a call that answers has posted its own. -/
theorem create_journal_fresh {id : String}
    (hfresh : ∀ e ∈ entries, ¬ e.LiveAt posting.referenceNo posting.entryDate)
    (h : (createJournal ground link entries posting reversalOf).1 = .ok id) :
    posting.Sound ∧ id = ground.ids entries.length ∧
      (createJournal ground link entries posting reversalOf).2 =
        (entries ++ [posting.entry (ground.ids entries.length) reversalOf]).map
          (stamp reversalOf) := by
  have hnone : entries.find? (fun e => e.LiveAt posting.referenceNo posting.entryDate) = none := by
    rw [List.find?_eq_none]
    intro e he
    simpa using hfresh e he
  have hlookup : ∀ found, liveEntryFor entries posting link.readable ≠ .ok (some found) := by
    intro found
    unfold liveEntryFor
    rw [hnone]
    split_ifs
    · simp
    · split <;> simp
    · dsimp only
      split
      · split <;> simp
      · simp
  unfold createJournal at h ⊢
  split_ifs at h ⊢ with hbalanced hzero
  have hsound : posting.Sound := ⟨not_not.mp hbalanced, hzero⟩
  have hpost : postAtomic ground.ids entries posting reversalOf =
      ((entries ++ [posting.entry (ground.ids entries.length) reversalOf]).map (stamp reversalOf),
        some (ground.ids entries.length)) := by
    rcases post_atomic_cases ground.ids entries posting reversalOf with ⟨e, he, hlive, -⟩ | ⟨-, hadd⟩
    · exact absurd hlive (hfresh e he)
    · exact hadd
  rw [hpost] at h ⊢
  refine ⟨hsound, ?_⟩
  revert h
  split
  · simp
  · split
    · simp
    · rename_i found hfound
      exact absurd hfound (hlookup found)
    · dsimp only
      split
      · simp
      · simp
      · intro h
        exact ⟨(Except.ok.inj h).symm, rfl⟩

/-- A call that changes the entries was let on, and its write was carried out. -/
theorem create_journal_changed (h : (createJournal ground link entries posting reversalOf).2 ≠ entries) :
    ground.refusal posting.entryDate = none ∧ ∀ raised, link.written ≠ .refused raised := by
  unfold createJournal at h
  split_ifs at h
  · exact absurd rfl h
  · exact absurd rfl h
  · cases hrefusal : ground.refusal posting.entryDate with
    | some refused =>
      rw [hrefusal] at h
      exact absurd rfl h
    | none =>
      refine ⟨rfl, fun raised hwritten => h ?_⟩
      rw [hrefusal, hwritten]
      dsimp only
      split <;> rfl

/-- A call that answers was let on, and it could look or could write. -/
theorem create_journal_answered {id : String}
    (h : (createJournal ground link entries posting reversalOf).1 = .ok id) :
    posting.Sound ∧ ground.refusal posting.entryDate = none ∧
      (link.readable = true ∨ link.written = .done) := by
  unfold createJournal at h
  split_ifs at h with hbalanced hzero
  refine ⟨⟨not_not.mp hbalanced, hzero⟩, ?_⟩
  cases hrefusal : ground.refusal posting.entryDate with
  | some refused =>
    rw [hrefusal] at h
    cases h
  | none =>
    refine ⟨rfl, ?_⟩
    rw [hrefusal] at h
    dsimp only at h
    cases hreadable : link.readable with
    | true => exact .inl rfl
    | false =>
      right
      have hlookup : ∀ found, liveEntryFor entries posting false ≠ .ok (some found) := by
        intro found
        unfold liveEntryFor
        split_ifs
        · simp
        · cases posting.mustMatch <;> simp
        · rename_i hread
          exact absurd rfl hread
      rw [hreadable] at h
      split at h
      · cases h
      · rename_i found hfound
        exact absurd hfound (hlookup found)
      · split at h
        · cases h
        · cases h
        · assumption

/-- A lookup that names a document answers as one that names none, or refuses an entry it finds. -/
theorem lookup_again (what : String) {sourceId : String}
    (hsource : posting.sourceId = some sourceId)
    (hnone : liveEntryOfSource entries posting.sourceType sourceId posting.entryType = none) :
    liveEntryFor entries { posting with mustMatch := some what } true =
        liveEntryFor entries { posting with mustMatch := none } true ∨
      (∃ e ∈ entries, e.LiveAt posting.referenceNo posting.entryDate) ∧
        ∃ found raised,
          liveEntryFor entries { posting with mustMatch := none } true = .ok (some found) ∧
          liveEntryFor entries { posting with mustMatch := some what } true = .error raised := by
  unfold liveEntryFor
  split_ifs
  · exact .inl rfl
  · rename_i hread
    cases hread
  · dsimp only
    cases hfind : entries.find? fun e => e.LiveAt posting.referenceNo posting.entryDate with
    | none =>
      left
      rw [hsource]
      dsimp only
      rw [hnone]
    | some e =>
      dsimp only [Option.bind]
      cases difference e.lines posting.lines what with
      | none => exact .inl rfl
      | some problem =>
        refine .inr ⟨⟨e, List.mem_of_find?_eq_some hfind, ?_⟩, _, _, rfl, rfl⟩
        simpa using List.find?_some hfind

/-- A retry that names its document posts what a first run posts, where no entry of the document's
source stands. Only an entry under the same number and date can make their answers differ. -/
theorem create_journal_again (ground : Ground) (entries : List Entry) (posting : Posting)
    (reversalOf : Option String) (what : String) {sourceId : String}
    (hsource : posting.sourceId = some sourceId)
    (hnone : liveEntryOfSource entries posting.sourceType sourceId posting.entryType = none) :
    let first := createJournal ground .sound entries { posting with mustMatch := none } reversalOf
    let again :=
      createJournal ground .sound entries { posting with mustMatch := some what } reversalOf
    again.2 = first.2 ∧
      ((∀ e ∈ entries, ¬ e.LiveAt posting.referenceNo posting.entryDate) → again = first) := by
  unfold createJournal
  split_ifs
  · exact ⟨rfl, fun _ => rfl⟩
  · exact ⟨rfl, fun _ => rfl⟩
  · cases ground.refusal posting.entryDate with
    | some refused => exact ⟨rfl, fun _ => rfl⟩
    | none =>
      rcases lookup_again what hsource hnone with heq | ⟨⟨e, he, hlive⟩, found, raised, hf, ha⟩
      · change liveEntryFor entries _ Link.sound.readable = _ at heq
        dsimp only
        rw [heq]
        exact ⟨rfl, fun _ => rfl⟩
      · change liveEntryFor entries _ Link.sound.readable = _ at hf ha
        dsimp only
        rw [hf, ha]
        exact ⟨rfl, fun hfresh => absurd hlive (hfresh e he)⟩

end

/-- Every entry was checked before it was posted. -/
def Balanced (entries : List Entry) : Prop :=
  ∀ e ∈ entries, totalDebit e.lines = totalCredit e.lines

theorem create_journal_balanced (h : Balanced entries) :
    Balanced (createJournal ground link entries posting reversalOf).2 := by
  rcases create_journal_entries ground link entries posting reversalOf with
    hkeep | ⟨hsound, -, hadd⟩
  · rw [hkeep]
    exact h
  · rw [hadd]
    intro e he
    obtain ⟨e', he', rfl⟩ := List.mem_map.mp he
    rw [stamp_lines]
    rcases List.mem_append.mp he' with hold | hnew
    · exact h e' hold
    · rw [List.mem_singleton.mp hnew]
      exact hsound.balanced

end Caflow.Accounting.Kernel
