import Caflow.Settlement.OverSettlement
import Caflow.Lib.SharedTotal

set_option linter.all false

namespace Caflow.Settlement.Payables
open Interleaving Interrupted SharedTotal

/-- The debit notes issued on a bill. -/
def DebitNotes.issuedTotal (notes : DebitNotes) (billId : String) : ℤ :=
  ((notes.rows.filter fun n => n.status = .issued ∧ n.purchaseBillId = some billId).map
    DebitNote.totalPaise).sum

def Tables.applications (tables : Tables) (noteId : String) : List NoteAllocation :=
  tables.noteAllocations.rows.filter (·.noteId = noteId)

/-- Every bill is debited by the notes issued on it, and each of these has its one application. -/
structure Tables.Applied (tables : Tables) : Prop where
  debited : ∀ billId bill, tables.bills billId = some bill →
    bill.debitedPaise = tables.notes.issuedTotal billId
  issued : ∀ note ∈ tables.notes.rows, note.status = .issued →
    ∀ billId, note.purchaseBillId = some billId →
      tables.applications note.id = [⟨note.id, billId, note.totalPaise⟩]
  draft : ∀ note ∈ tables.notes.rows, note.status = .draft → tables.applications note.id = []
  unlinked : ∀ note ∈ tables.notes.rows, note.purchaseBillId = none →
    tables.applications note.id = []

/-- What a call that is on its way has put on a bill. -/
def debits (billId : String) : Phase → ℤ
  | .noting _ (.insertAllocation note b _) | .noting _ (.undoUnrecorded note b _ _)
  | .noting _ (.journal note (some (b, _))) | .noting _ (.deleteAllocation note b _ _)
  | .noting _ (.undoUnposted note b _ _) | .noting _ (.writeNote note (some b)) =>
    if b = billId then note.totalPaise else 0
  | _ => 0

/-- Whether a call on its way has put in its note's application. -/
def holds (noteId : String) : Phase → ℤ
  | .noting id (.journal _ (some _)) | .noting id (.deleteAllocation _ _ _ _)
  | .noting id (.writeNote _ (some _)) => if id = noteId then 1 else 0
  | _ => 0

theorem holds_nonneg (noteId : String) (phase : Phase) : 0 ≤ holds noteId phase := by
  unfold holds
  split
  all_goals first | (split <;> decide) | exact le_refl 0

/-- One application is due to a note that is issued on a bill. -/
def DebitNote.due (note : DebitNote) : ℤ :=
  if note.status = .issued ∧ note.purchaseBillId.isSome then 1 else 0

def DebitNote.SameAs (note row : DebitNote) : Prop :=
  row.id = note.id ∧ row.purchaseBillId = note.purchaseBillId ∧ row.totalPaise = note.totalPaise

/-- The note that a call read is a note of its id, whose bill the call goes to. -/
def Reads (tables : Tables) : Phase → Prop
  | .noting noteId (.checks note) =>
    note.id = noteId ∧ ∃ row ∈ tables.notes.rows, note.SameAs row
  | .noting noteId (.readBill note b _) | .noting noteId (.writeBill note b _ _)
  | .noting noteId (.insertAllocation note b _) | .noting noteId (.undoUnrecorded note b _ _)
  | .noting noteId (.journal note (some (b, _))) | .noting noteId (.deleteAllocation note b _ _)
  | .noting noteId (.undoUnposted note b _ _) | .noting noteId (.writeNote note (some b)) =>
    note.id = noteId ∧ note.purchaseBillId = some b ∧ ∃ row ∈ tables.notes.rows, note.SameAs row
  | .noting noteId (.journal note none) | .noting noteId (.writeNote note none) =>
    note.id = noteId ∧ note.purchaseBillId = none ∧ ∃ row ∈ tables.notes.rows, note.SameAs row
  | _ => True

/-- Applications are of a note's own bill and of its total. -/
def Tables.Proper (tables : Tables) : Prop :=
  ∀ a ∈ tables.noteAllocations.rows, ∀ note ∈ tables.notes.rows, note.id = a.noteId →
    note.purchaseBillId = some a.billId ∧ a.allocatedPaise = note.totalPaise

/-- What one statement does to debits and applications is what the call's shares say. -/
structure Moves (before after : Tables) (p q : Phase) : Prop where
  debited : ∀ billId bill', after.bills billId = some bill' →
    ∃ bill, before.bills billId = some bill ∧
      bill'.debitedPaise - after.notes.issuedTotal billId =
        bill.debitedPaise - before.notes.issuedTotal billId + (debits billId q - debits billId p)
  rows : ∀ note' ∈ after.notes.rows, ∃ note ∈ before.notes.rows, note.SameAs note' ∧
    ((after.applications note.id).length : ℤ) - note'.due =
      (before.applications note.id).length - note.due + (holds note.id q - holds note.id p)
  same : ∀ note ∈ before.notes.rows, ∃ note' ∈ after.notes.rows, note.SameAs note'
  proper : before.Proper → after.Proper

theorem DebitNote.SameAs.refl (note : DebitNote) : note.SameAs note := ⟨rfl, rfl, rfl⟩

section
variable {tables : Tables} {p q : Phase}

/-- A statement that moves a bill's debits by what its call has put there. -/
theorem moves_debited (values : Bill → Bill) (hbill : tables.bills billId = some bill)
    (hdebited : (values bill).debitedPaise = bill.debitedPaise + (debits billId q - debits billId p))
    (hothers : ∀ b, b ≠ billId → debits b q = debits b p)
    (hholds : ∀ id, holds id q = holds id p) :
    Moves tables { tables with bills := Function.update tables.bills billId (some (values bill)) } p q where
  debited := by
    intro b bill' hbill'
    by_cases hb : b = billId
    · subst hb
      simp only [Function.update_self, Option.some.injEq] at hbill'
      subst hbill'
      exact ⟨bill, hbill, by dsimp only; omega⟩
    · simp only [Function.update_of_ne hb] at hbill'
      exact ⟨bill', hbill', by rw [hothers b hb]; dsimp only; omega⟩
  rows := by
    intro note hnote
    refine ⟨note, hnote, .refl note, ?_⟩
    change ((tables.applications note.id).length : ℤ) - _ = _
    rw [hholds]
    omega
  same := fun note hnote => ⟨note, hnote, .refl note⟩
  proper := id

/-- A statement that leaves notes and applications, and every bill's debits. -/
theorem moves_still {after : Tables}
    (hbills : ∀ billId bill', after.bills billId = some bill' →
      ∃ bill, tables.bills billId = some bill ∧ bill'.debitedPaise = bill.debitedPaise)
    (hnotes : after.notes = tables.notes) (hrows : after.noteAllocations = tables.noteAllocations)
    (hdebits : ∀ b, debits b q = debits b p) (hholds : ∀ id, holds id q = holds id p) :
    Moves tables after p q where
  debited := by
    intro b bill' hbill'
    obtain ⟨bill, hbill, hsame⟩ := hbills b bill' hbill'
    exact ⟨bill, hbill, by rw [hnotes, hdebits, hsame]; omega⟩
  rows := by
    intro note hnote
    rw [hnotes] at hnote
    refine ⟨note, hnote, .refl note, ?_⟩
    unfold Tables.applications
    rw [hrows, hholds]
    omega
  same := fun note hnote => ⟨note, hnotes ▸ hnote, .refl note⟩
  proper := by
    unfold Tables.Proper
    rw [hnotes, hrows]
    exact id

theorem moves_nothing (hdebits : ∀ b, debits b q = debits b p)
    (hholds : ∀ id, holds id q = holds id p) : Moves tables tables p q :=
  moves_still (fun _ bill hbill => ⟨bill, hbill, rfl⟩) rfl rfl hdebits hholds

/-- An application goes in. -/
theorem moves_applied {noteId billId : String} {note row : DebitNote}
    (hinserted : tables.insertNoteAllocation ⟨noteId, billId, note.totalPaise⟩ = some inserted)
    (hrow : row ∈ tables.notes.rows) (hsame : note.SameAs row) (hid : note.id = noteId)
    (hlinked : note.purchaseBillId = some billId)
    (hdebits : ∀ b, debits b q = debits b p)
    (hholds : ∀ id, holds id q = holds id p + if noteId = id then 1 else 0) :
    Moves tables inserted p q := by
  unfold Tables.insertNoteAllocation at hinserted
  split at hinserted
  · obtain rfl := (Option.some.inj hinserted).symm
    refine ⟨?_, ?_, fun note hnote => ⟨note, hnote, .refl note⟩, ?_⟩
    · intro b bill hbill
      exact ⟨bill, hbill, by rw [hdebits]; dsimp only; omega⟩
    · intro other hother
      refine ⟨other, hother, .refl other, ?_⟩
      unfold Tables.applications
      dsimp only
      rw [List.filter_append, List.length_append, hholds]
      by_cases hnote : noteId = other.id
      · simp only [hnote, decide_true, List.filter_cons, List.filter_nil, if_true,
          List.length_singleton]
        push_cast
        omega
      · simp only [hnote, decide_false, List.filter_cons, List.filter_nil, Bool.false_eq_true,
          if_false, List.length_nil]
        push_cast
        omega
    · intro hproper a ha other hother hidother
      rcases List.mem_append.mp ha with hold | hnew
      · exact hproper a hold other hother hidother
      · obtain rfl := List.mem_singleton.mp hnew
        obtain rfl : other = row := by
          apply List.inj_on_of_nodup_map tables.notes.unique hother hrow
          rw [hidother, hsame.1, hid]
        exact ⟨hsame.2.1.trans hlinked, hsame.2.2.symm⟩
  · cases hinserted

/-- The application of a note is taken out. -/
theorem moves_withdrawn {noteId billId : String}
    (hone : ∀ note ∈ tables.notes.rows, note.id = noteId →
      (tables.applications note.id).length = 1 ∧
        ∀ a ∈ tables.applications note.id, a.billId = billId)
    (hdebits : ∀ b, debits b q = debits b p)
    (hholds : ∀ id, holds id q = holds id p - if noteId = id then 1 else 0) :
    Moves tables (tables.deleteNoteAllocation noteId billId) p q where
  debited := fun b bill hbill => ⟨bill, hbill, by
    rw [hdebits]
    dsimp only [Tables.deleteNoteAllocation]
    omega⟩
  rows := by
    intro note hnote
    refine ⟨note, hnote, .refl note, ?_⟩
    unfold Tables.applications Tables.deleteNoteAllocation
    dsimp only
    rw [List.filter_filter, hholds]
    by_cases hid : noteId = note.id
    · obtain ⟨hlength, hbill⟩ := hone note hnote hid.symm
      have hnone : tables.noteAllocations.rows.filter (fun a => decide (a.noteId = note.id) &&
          decide ¬ (a.noteId = noteId ∧ a.billId = billId)) = [] := by
        rw [List.filter_eq_nil_iff]
        intro a ha h
        simp only [Bool.and_eq_true, decide_eq_true_eq] at h
        have hmem : a ∈ tables.applications note.id :=
          List.mem_filter.mpr ⟨ha, decide_eq_true h.1⟩
        exact h.2 ⟨h.1.trans hid.symm, hbill a hmem⟩
      rw [hnone, if_pos hid]
      unfold Tables.applications at hlength
      rw [hlength]
      push_cast
      rw [List.length_nil]
      push_cast
      omega
    · have hall : tables.noteAllocations.rows.filter (fun a => decide (a.noteId = note.id) &&
          decide ¬ (a.noteId = noteId ∧ a.billId = billId)) =
            tables.noteAllocations.rows.filter (·.noteId = note.id) := by
        apply List.filter_congr
        intro a _
        by_cases ha : a.noteId = note.id
        · have hother : ¬ (note.id = noteId ∧ a.billId = billId) := fun h => hid h.1.symm
          simp only [ha, hother, not_false_eq_true, decide_true, Bool.and_self]
        · simp only [ha, decide_false, Bool.false_and]
      rw [hall, if_neg hid]
      omega
  same := fun note hnote => ⟨note, hnote, .refl note⟩
  proper := fun hproper a ha => hproper a (List.mem_of_mem_filter ha)

theorem issue_same (notes : DebitNotes) (noteId : String) (applied : ℤ) {note : DebitNote}
    (h : note ∈ notes.rows) :
    ∃ note' ∈ (notes.issue noteId applied).rows, note.SameAs note' := by
  refine ⟨_, List.mem_map_of_mem h, ?_⟩
  split
  · exact ⟨rfl, rfl, rfl⟩
  · exact .refl note

/-- Issuing a draft adds it to what is issued on its bill, and nothing to other bills. -/
theorem issued_total_issue (notes : DebitNotes) (row : DebitNote) (hrow : row ∈ notes.rows)
    (applied : ℤ) (billId : String) :
    (notes.issue row.id applied).issuedTotal billId = notes.issuedTotal billId +
      if row.status = .draft ∧ row.purchaseBillId = some billId then row.totalPaise else 0 := by
  obtain ⟨rows, hunique⟩ := notes
  unfold DebitNotes.issuedTotal DebitNotes.issue
  dsimp only at hrow ⊢
  induction rows with
  | nil => cases hrow
  | cons n rows ih =>
    rw [List.map_cons, List.nodup_cons] at hunique
    rw [List.map_cons, List.filter_cons, List.filter_cons]
    rcases List.mem_cons.mp hrow with rfl | hrest
    · -- no other row has the id of the one that is issued
      have hothers : (rows.map fun n => if n.id = row.id then n.issue applied else n) = rows := by
        conv_rhs => rw [← List.map_id rows]
        apply List.map_congr_left
        intro n hn
        rw [if_neg, id]
        rintro hid
        exact hunique.1 (hid ▸ List.mem_map_of_mem hn)
      rw [hothers, if_pos rfl]
      by_cases hbill : row.purchaseBillId = some billId
      · cases hstatus : row.status with
        | draft => simp [DebitNote.issue, hbill, add_comm]
        | issued => simp [DebitNote.issue, hbill]
      · simp [DebitNote.issue, hbill]
    · have hne : n.id ≠ row.id := fun h => hunique.1 (h ▸ List.mem_map_of_mem hrest)
      rw [if_neg hne]
      have hrecur := ih hunique.2 hrest
      split
      · simp only [List.map_cons, List.sum_cons, hrecur]
        omega
      · exact hrecur

/-- A note is issued: a draft, unless it names no bill. -/
theorem moves_issued {note row : DebitNote} (hrow : row ∈ tables.notes.rows)
    (hsame : note.SameAs row) (hdraft : note.purchaseBillId ≠ none → row.status = .draft)
    (applied : ℤ)
    (hdebits : ∀ b, debits b q = debits b p -
      if note.purchaseBillId = some b then note.totalPaise else 0)
    (hholds : ∀ id, holds id q = holds id p -
      if note.id = id ∧ note.purchaseBillId.isSome then 1 else 0) :
    Moves tables (tables.issueNote note.id applied) p q := by
  obtain ⟨hid, hbill, htotal⟩ := hsame
  refine ⟨?_, ?_, fun other hother => issue_same tables.notes note.id applied hother, ?_⟩
  · intro b bill hb
    refine ⟨bill, hb, ?_⟩
    change bill.debitedPaise - (tables.notes.issue note.id applied).issuedTotal b = _
    rw [← hid, issued_total_issue _ row hrow, hdebits, hbill, htotal]
    by_cases hlinked : note.purchaseBillId = some b
    · have := hdraft (by rw [hlinked]; simp)
      rw [if_pos ⟨this, hlinked⟩, if_pos hlinked]
      omega
    · rw [if_neg fun h => hlinked h.2, if_neg hlinked]
      omega
  · intro other' hother'
    obtain ⟨other, hother, rfl⟩ := List.mem_map.mp hother'
    refine ⟨other, hother, ?_, ?_⟩
    · split
      · exact ⟨rfl, rfl, rfl⟩
      · exact .refl other
    · change ((tables.applications other.id).length : ℤ) - _ = _
      rw [hholds]
      by_cases hother_id : other.id = note.id
      · obtain rfl : other = row := by
          apply List.inj_on_of_nodup_map tables.notes.unique hother hrow
          rw [hother_id, hid]
        rw [if_pos hother_id]
        unfold DebitNote.due DebitNote.issue
        dsimp only
        rw [hbill]
        cases hlinked : note.purchaseBillId with
        | none => simp
        | some b =>
          have := hdraft (by rw [hlinked]; simp)
          simp [this, hother_id]
          omega
      · rw [if_neg hother_id, if_neg fun h => hother_id h.1.symm]
        omega
  · intro hproper a ha other' hother'
    obtain ⟨other, hother, rfl⟩ := List.mem_map.mp hother'
    intro hother_id
    have hold := hproper a ha other hother (by
      rw [← hother_id]
      split <;> rfl)
    split
    · exact hold
    · exact hold

/-- A statement that strands nothing: what is lost wrote nothing, what was put on a bill is taken off
it as it was put there, and a note that was put on its bill is marked. -/
def Kept (tables : Tables) : Phase → Outcome Failure → Prop
  | .noting _ (.writeBill _ billId _ read), .lost _ =>
    ∀ bill, tables.bills billId = some bill → bill.debitedPaise ≠ read.debitedPaise
  | .noting noteId (.insertAllocation note billId _), .lost _ =>
    tables.insertNoteAllocation ⟨noteId, billId, note.totalPaise⟩ = none
  | .noting _ (.undoUnrecorded note billId read _), reply
  | .noting _ (.undoUnposted note billId read _), reply =>
    (∀ failure, reply ≠ .refused failure) ∧
      ∀ bill, tables.bills billId = some bill →
        bill.debitedPaise = read.debitedPaise + note.totalPaise
  | .noting _ (.deleteAllocation _ _ _ _), reply => reply = .done
  | .noting _ (.writeNote _ (some _)), .refused _ => False
  | _, _ => True

/-- A call that has put in an application: it is the only one of its note, which is still a draft. -/
def Sole (tables : Tables) (phase : Phase) : Prop :=
  ∀ note ∈ tables.notes.rows, holds note.id phase = 1 →
    (tables.applications note.id).length = 1 ∧ note.due = 0

theorem restore_bill_eq {billId : String} {bill : Bill} (hbill : tables.bills billId = some bill)
    (read : Bill) : tables.restoreBill billId read =
      { tables with bills := Function.update tables.bills billId (some (bill.restored read)) } := by
  unfold Tables.restoreBill Tables.updateHeader
  simp [hbill]

theorem restore_bill_none {billId : String} (hbill : tables.bills billId = none) (read : Bill) :
    tables.restoreBill billId read = tables := by
  unfold Tables.restoreBill Tables.updateHeader
  simp [hbill]

/-- Nothing is put anywhere. -/
def Idle (phase : Phase) : Prop := (∀ b, debits b phase = 0) ∧ ∀ id, holds id phase = 0

theorem moves_idle (hp : Idle p) (hq : Idle q) : Moves tables tables p q :=
  moves_nothing (fun b => (hq.1 b).trans (hp.1 b).symm) fun id => (hq.2 id).trans (hp.2 id).symm

theorem idle_raised (noteId : String) (failure : Failure) : Idle (.noting noteId (.raised failure)) :=
  ⟨fun _ => rfl, fun _ => rfl⟩

theorem idle_checked (noteId : String) (note : DebitNote) : Idle (.noting noteId (checked note)) := by
  unfold checked
  split
  · split
    · exact ⟨fun _ => rfl, fun _ => rfl⟩
    · exact ⟨fun _ => rfl, fun _ => rfl⟩
  · exact ⟨fun _ => rfl, fun _ => rfl⟩

/-- A bill is given back what a note put on it. -/
theorem moves_restored {note : DebitNote} {billId : String} {read : Bill}
    (hfound : ∀ bill, tables.bills billId = some bill →
      bill.debitedPaise = read.debitedPaise + note.totalPaise)
    (hdebits : ∀ b, debits b p = if billId = b then note.totalPaise else 0)
    (hholds : ∀ id, holds id p = 0) (hq : Idle q) :
    Moves tables (tables.restoreBill billId read) p q := by
  have hothers : ∀ b, b ≠ billId → debits b q = debits b p := by
    intro b hb
    rw [hq.1, hdebits, if_neg (Ne.symm hb)]
  rcases Option.eq_none_or_eq_some (tables.bills billId) with hnone | ⟨bill, hbill⟩
  · rw [restore_bill_none hnone]
    refine ⟨fun b bill hbill => ⟨bill, hbill, ?_⟩, ?_, fun note hnote => ⟨note, hnote, .refl note⟩, id⟩
    · have hb : b ≠ billId := fun h => by rw [h, hnone] at hbill; cases hbill
      rw [hothers b hb]
      omega
    · intro note hnote
      refine ⟨note, hnote, .refl note, ?_⟩
      rw [hq.2, hholds]
      omega
  · rw [restore_bill_eq hbill]
    refine moves_debited (·.restored read) hbill ?_ hothers fun id => (hq.2 id).trans (hholds id).symm
    rw [hq.1, hdebits, if_pos rfl, hfound bill hbill]
    dsimp only [Bill.restored]
    omega

/-- What one statement of a debit note's issue does. -/
theorem note_moves (noteId : String) (phase : NotePhase) (reply : Outcome Failure)
    (hreads : Reads tables (.noting noteId phase)) (hkept : Kept tables (.noting noteId phase) reply)
    (hsole : Sole tables (.noting noteId phase)) (hproper : tables.Proper) :
    Moves tables (noteStep noteId tables phase reply).1 (.noting noteId phase)
      (.noting noteId (noteStep noteId tables phase reply).2) := by
  cases phase with
  | readNote =>
    cases reply with
    | refused failure | lost failure => exact moves_idle ⟨fun _ => rfl, fun _ => rfl⟩ (idle_raised _ _)
    | done =>
      unfold noteStep reading
      dsimp only
      apply moves_idle ⟨fun _ => rfl, fun _ => rfl⟩
      split
      · exact idle_raised _ _
      · split
        · exact idle_raised _ _
        · exact ⟨fun _ => rfl, fun _ => rfl⟩
  | checks note =>
    cases reply with
    | refused failure | lost failure => exact moves_idle ⟨fun _ => rfl, fun _ => rfl⟩ (idle_raised _ _)
    | done => exact moves_idle ⟨fun _ => rfl, fun _ => rfl⟩ (idle_checked _ _)
  | readBill note billId left =>
    cases reply with
    | refused failure | lost failure => exact moves_idle ⟨fun _ => rfl, fun _ => rfl⟩ (idle_raised _ _)
    | done =>
      unfold noteStep reading
      dsimp only
      apply moves_idle ⟨fun _ => rfl, fun _ => rfl⟩
      split
      · exact idle_raised _ _
      · exact ⟨fun _ => rfl, fun _ => rfl⟩
  | writeBill note billId left read =>
    have hidle : Idle (.noting noteId (.writeBill note billId left read)) :=
      ⟨fun _ => rfl, fun _ => rfl⟩
    cases reply with
    | refused failure => exact moves_idle hidle (idle_raised _ _)
    | lost failure =>
      -- the guard lets nothing through
      have hnone : tables.updateHeader billId (·.debitedPaise = read.debitedPaise)
          (·.debiting read note.totalPaise) = none := by
        rcases Option.eq_none_or_eq_some (tables.updateHeader billId
          (·.debitedPaise = read.debitedPaise) (·.debiting read note.totalPaise)) with h | ⟨t, h⟩
        · exact h
        · obtain ⟨bill, hbill, hguard, -⟩ := update_header_some h
          exact absurd hguard (hkept bill hbill)
      unfold noteStep
      dsimp only
      rw [hnone]
      exact moves_idle hidle (idle_raised _ _)
    | done =>
      unfold noteStep
      dsimp only
      split
      · rename_i written hwritten
        obtain ⟨bill, hbill, hguard, rfl⟩ := update_header_some hwritten
        refine moves_debited (·.debiting read note.totalPaise) hbill ?_ ?_ fun _ => rfl
        · change read.debitedPaise + note.totalPaise =
            bill.debitedPaise + ((if billId = billId then note.totalPaise else 0) - 0)
          rw [if_pos rfl, hguard]
          omega
        · intro b hb
          exact if_neg (Ne.symm hb)
      · exact moves_idle hidle (idle_raised _ _)
      · exact moves_idle hidle ⟨fun _ => rfl, fun _ => rfl⟩
  | insertAllocation note billId read =>
    obtain ⟨hid, hlinked, row, hrow, hsame⟩ := hreads
    unfold noteStep
    dsimp only
    split
    · rename_i inserted hinserted
      refine moves_applied hinserted hrow hsame hid hlinked (fun _ => rfl) fun id => ?_
      exact (zero_add _).symm
    · exact moves_nothing (fun _ => rfl) fun _ => rfl
    · exact moves_nothing (fun _ => rfl) fun _ => rfl
    · rename_i failure
      change tables.insertNoteAllocation ⟨noteId, billId, note.totalPaise⟩ = none at hkept
      rw [hkept]
      exact moves_nothing (fun _ => rfl) fun _ => rfl
  | undoUnrecorded note billId read raised =>
    obtain ⟨hanswered, hfound⟩ := hkept
    cases reply with
    | refused failure => exact absurd rfl (hanswered failure)
    | done | lost failure =>
      exact moves_restored hfound (fun _ => rfl) (fun _ => rfl) (idle_raised _ _)
  | journal note prior =>
    cases prior with
    | none =>
      cases reply with
      | done => exact moves_nothing (fun _ => rfl) fun _ => rfl
      | refused failure | lost failure => exact moves_nothing (fun _ => rfl) fun _ => rfl
    | some prior =>
      obtain ⟨billId, read⟩ := prior
      cases reply with
      | done => exact moves_nothing (fun _ => rfl) fun _ => rfl
      | refused failure | lost failure => exact moves_nothing (fun _ => rfl) fun _ => rfl
  | deleteAllocation note billId read raised =>
    obtain ⟨hid, hlinked, row, hrow, hsame⟩ := hreads
    obtain rfl : reply = .done := hkept
    refine moves_withdrawn ?_ (fun _ => rfl) fun id => ?_
    · intro other hother hother_id
      refine ⟨(hsole other hother (if_pos hother_id.symm)).1, fun a ha => ?_⟩
      obtain ⟨ha, haid⟩ := List.mem_filter.mp ha
      have hown := (hproper a ha other hother (of_decide_eq_true haid).symm).1
      obtain rfl : other = row := by
        apply List.inj_on_of_nodup_map tables.notes.unique hother hrow
        rw [hother_id, hsame.1, hid]
      rw [hsame.2.1, hlinked] at hown
      exact (Option.some.inj hown).symm
    · change (0 : ℤ) = (if noteId = id then 1 else 0) - if noteId = id then 1 else 0
      omega
  | undoUnposted note billId read raised =>
    obtain ⟨hanswered, hfound⟩ := hkept
    cases reply with
    | refused failure => exact absurd rfl (hanswered failure)
    | done | lost failure =>
      exact moves_restored hfound (fun _ => rfl) (fun _ => rfl) (idle_raised _ _)
  | writeNote note applied =>
    cases applied with
    | none =>
      obtain ⟨rfl, hlinked, row, hrow, hsame⟩ := hreads
      have hissued : ∀ q, Idle q → Moves tables (tables.issueNote note.id 0)
          (.noting note.id (.writeNote note none)) q := by
        intro q hq
        refine moves_issued hrow hsame (fun h => absurd hlinked h) 0 (fun b => ?_) fun id => ?_
        · rw [hq.1, hlinked]
          exact (sub_zero _).symm
        · rw [hq.2, hlinked]
          simp [holds]
      cases reply with
      | refused failure => exact moves_nothing (fun _ => rfl) fun _ => rfl
      | done | lost failure => exact hissued _ ⟨fun _ => rfl, fun _ => rfl⟩
    | some billId =>
      obtain ⟨rfl, hlinked, row, hrow, hsame⟩ := hreads
      have hdue := (hsole row hrow (if_pos hsame.1.symm)).2
      have hdraft : row.status = .draft := by
        unfold DebitNote.due at hdue
        rw [hsame.2.1, hlinked] at hdue
        cases hstatus : row.status with
        | draft => rfl
        | issued => simp [hstatus] at hdue
      have hissued : ∀ q, Idle q → Moves tables (tables.issueNote note.id note.totalPaise)
          (.noting note.id (.writeNote note (some billId))) q := by
        intro q hq
        refine moves_issued hrow hsame (fun _ => hdraft) note.totalPaise (fun b => ?_) fun id => ?_
        · rw [hq.1, hlinked]
          change (0 : ℤ) = (if billId = b then note.totalPaise else 0) - _
          simp
        · rw [hq.2, hlinked]
          change (0 : ℤ) = (if note.id = id then 1 else 0) - _
          simp
      cases reply with
      | refused failure => exact hkept.elim
      | done | lost failure => exact hissued _ ⟨fun _ => rfl, fun _ => rfl⟩
  | finished | raised failure => exact moves_nothing (fun _ => rfl) fun _ => rfl

/-- A payment leaves the debit notes and their applications. -/
theorem pay_notes (call : PaymentCall) (tables : Tables) (phase : PayPhase)
    (reply : Outcome Failure) :
    (payStep call tables phase reply).1.notes = tables.notes ∧
      (payStep call tables phase reply).1.noteAllocations = tables.noteAllocations := by
  have hinsert : ∀ inserted, tables.insertAllocations call.rows = some inserted →
      inserted.notes = tables.notes ∧ inserted.noteAllocations = tables.noteAllocations := by
    intro inserted h
    unfold Tables.insertAllocations at h
    split at h
    · rw [← Option.some.inj h]
      exact ⟨rfl, rfl⟩
    · cases h
  cases phase with
  | vendor | period | journal => exact ⟨by rw [payStep, reading_store], by rw [payStep, reading_store]⟩
  | checkStatus rest | prevalidate rest =>
    cases rest with
    | nil => exact ⟨rfl, rfl⟩
    | cons first rest => exact ⟨by rw [payStep, reading_store], by rw [payStep, reading_store]⟩
  | readBill billId amount rest left =>
    exact ⟨by rw [payStep, reading_store], by rw [payStep, reading_store]⟩
  | insertPayment => cases reply <;> exact ⟨rfl, rfl⟩
  | writeBill billId amount rest left read =>
    unfold payStep
    dsimp only
    cases hwritten : tables.updateHeader billId (·.paidPaise = read.paidPaise)
      (·.paying read amount) with
    | none => cases reply <;> first | exact ⟨rfl, rfl⟩ | (cases left <;> exact ⟨rfl, rfl⟩)
    | some written =>
      obtain ⟨bill, -, -, rfl⟩ := update_header_some hwritten
      cases reply <;> exact ⟨rfl, rfl⟩
  | insertAllocations =>
    unfold payStep
    dsimp only
    cases hinserted : tables.insertAllocations call.rows with
    | none => cases reply <;> exact ⟨rfl, rfl⟩
    | some inserted =>
      have hsame := hinsert inserted hinserted
      cases reply with
      | refused failure => exact ⟨rfl, rfl⟩
      | done | lost failure => exact hsame
  | compensate failure => cases reply <;> exact ⟨rfl, rfl⟩
  | finished | raised failure => exact ⟨rfl, rfl⟩

theorem pay_moves (call : PaymentCall) (phase : PayPhase) (reply : Outcome Failure) :
    Moves tables (payStep call tables phase reply).1 (.paying call phase)
      (.paying call (payStep call tables phase reply).2) := by
  obtain ⟨hnotes, hrows⟩ := pay_notes call tables phase reply
  refine moves_still ?_ hnotes hrows (fun _ => rfl) fun _ => rfl
  intro b bill' hbill'
  rcases pay_bills call tables phase reply with hsame | ⟨touched, before, after, hbefore, htouch, hupd⟩
  · rw [hsame] at hbill'
    exact ⟨bill', hbill', rfl⟩
  · rw [hupd] at hbill'
    by_cases hb : b = touched
    · subst hb
      rw [Function.update_self] at hbill'
      obtain rfl := Option.some.inj hbill'
      refine ⟨before, hbefore, ?_⟩
      cases htouch
      rfl
    · rw [Function.update_of_ne hb] at hbill'
      exact ⟨bill', hbill', rfl⟩

/-- What one statement does. -/
theorem advance_moves (phase : Phase) (reply : Outcome Failure) (hreads : Reads tables phase)
    (hkept : Kept tables phase reply) (hsole : Sole tables phase) (hproper : tables.Proper) :
    Moves tables (advance tables phase reply).1 phase (advance tables phase reply).2 := by
  cases phase with
  | paying call phase => exact pay_moves call phase reply
  | noting noteId phase => exact note_moves noteId phase reply hreads hkept hsole hproper

theorem DebitNote.SameAs.trans {a b c : DebitNote} (h : a.SameAs b) (h' : b.SameAs c) :
    a.SameAs c :=
  ⟨h'.1.trans h.1, h'.2.1.trans h.2.1, h'.2.2.trans h.2.2⟩

theorem reads_kept {after : Tables}
    (hsame : ∀ note ∈ tables.notes.rows, ∃ note' ∈ after.notes.rows, note.SameAs note')
    (phase : Phase) (h : Reads tables phase) : Reads after phase := by
  have hrow : ∀ note : DebitNote, (∃ row ∈ tables.notes.rows, note.SameAs row) →
      ∃ row ∈ after.notes.rows, note.SameAs row := by
    rintro note ⟨row, hrow, hnote⟩
    obtain ⟨row', hrow', hsame'⟩ := hsame row hrow
    exact ⟨row', hrow', hnote.trans hsame'⟩
  unfold Reads at h ⊢
  split at h
  · exact ⟨h.1, hrow _ h.2⟩
  all_goals first | exact ⟨h.1, h.2.1, hrow _ h.2.2⟩ | trivial

/-- A call goes on with the note that it read. -/
theorem note_reads (noteId : String) (phase : NotePhase) (reply : Outcome Failure)
    (h : Reads tables (.noting noteId phase)) :
    Reads tables (.noting noteId (noteStep noteId tables phase reply).2) := by
  cases phase with
  | readNote =>
    cases reply with
    | refused failure | lost failure => trivial
    | done =>
      unfold noteStep reading
      dsimp only
      split
      · trivial
      · rename_i note hfound
        split
        · trivial
        · have hid := List.find?_some hfound
          exact ⟨of_decide_eq_true hid, note, List.mem_of_find?_eq_some hfound, .refl note⟩
  | checks note =>
    cases reply with
    | refused failure | lost failure => trivial
    | done =>
      unfold noteStep reading checked
      dsimp only
      split
      · rename_i billId hlinked
        rw [if_pos note.positive]
        exact ⟨h.1, hlinked, h.2⟩
      · rename_i hlinked
        exact ⟨h.1, hlinked, h.2⟩
  | readBill note billId left =>
    cases reply with
    | refused failure | lost failure => trivial
    | done =>
      unfold noteStep reading
      dsimp only
      split
      · trivial
      · exact h
  | writeBill note billId left read =>
    cases reply with
    | refused failure | lost failure => trivial
    | done =>
      unfold noteStep
      dsimp only
      split
      · exact h
      · trivial
      · exact h
  | insertAllocation note billId read =>
    unfold noteStep
    dsimp only
    split <;> exact h
  | undoUnrecorded note billId read failure => cases reply <;> trivial
  | journal note prior =>
    cases prior with
    | none =>
      cases reply with
      | done => exact h
      | refused failure | lost failure => trivial
    | some prior => cases reply <;> exact h
  | deleteAllocation note billId read failure =>
    cases reply with
    | done => exact h
    | refused failure | lost failure => trivial
  | undoUnposted note billId read failure => cases reply <;> trivial
  | writeNote note applied => cases reply <;> trivial
  | finished | raised failure => trivial

theorem advance_reads (phase : Phase) (reply : Outcome Failure) (h : Reads tables phase)
    (hsame : ∀ note ∈ tables.notes.rows,
      ∃ note' ∈ (advance tables phase reply).1.notes.rows, note.SameAs note') :
    Reads (advance tables phase reply).1 (advance tables phase reply).2 := by
  cases phase with
  | paying call phase => trivial
  | noting noteId phase => exact reads_kept hsame _ (note_reads noteId phase reply h)

/-- A note has no second application. -/
theorem applications_le_one (hproper : tables.Proper) {note : DebitNote}
    (hnote : note ∈ tables.notes.rows) : (tables.applications note.id).length ≤ 1 := by
  have hnodup : ((tables.applications note.id).map fun a => (a.noteId, a.billId)).Nodup :=
    tables.noteAllocations.unique.sublist (List.filter_sublist.map _)
  have hone : ((tables.applications note.id).map fun a => (a.noteId, a.billId)) =
      List.replicate (tables.applications note.id).length
        (note.id, note.purchaseBillId.getD "") := by
    rw [List.eq_replicate_iff, List.length_map]
    refine ⟨rfl, fun key hkey => ?_⟩
    obtain ⟨a, ha, rfl⟩ := List.mem_map.mp hkey
    obtain ⟨ha, haid⟩ := List.mem_filter.mp ha
    have haid := of_decide_eq_true haid
    rw [(hproper a ha note hnote haid.symm).1, haid]
    rfl
  rw [hone] at hnodup
  exact List.nodup_replicate.mp hnodup

end

section
variable {ι : Type} [DecidableEq ι] [Fintype ι]

/-- Debits and applications are those of the issued notes and of the calls on their way. -/
structure Accounts (w : World ι Tables Phase) : Prop where
  debited : ∀ billId bill, w.store.bills billId = some bill →
    Accounted (fun _ : ι => debits billId) 0
      (bill.debitedPaise - w.store.notes.issuedTotal billId) w.phase
  rows : ∀ note ∈ w.store.notes.rows,
    Accounted (fun _ : ι => holds note.id) 0
      ((w.store.applications note.id).length - note.due) w.phase
  reads : ∀ i, Reads w.store (w.phase i)
  proper : w.store.Proper

omit [DecidableEq ι] in
theorem accounts_sole {w : World ι Tables Phase} (h : Accounts w) (i : ι) :
    Sole w.store (w.phase i) := by
  intro note hnote hholds
  have hrows := h.rows note hnote
  unfold Accounted at hrows
  dsimp only at hrows
  have hone : holds note.id (w.phase i) ≤ ∑ j, holds note.id (w.phase j) :=
    Finset.single_le_sum (fun j _ => holds_nonneg note.id (w.phase j)) (Finset.mem_univ i)
  have hle := applications_le_one h.proper hnote
  have hdue : 0 ≤ note.due := by
    unfold DebitNote.due
    split <;> decide
  omega

theorem step_accounts {w : World ι Tables Phase} (h : Accounts w) (i : ι)
    (reply : Outcome Failure) (hkept : Kept w.store (w.phase i) reply) :
    Accounts (step (fun _ => advance) w (i, reply)) := by
  have hmoves := advance_moves (w.phase i) reply (h.reads i) hkept (accounts_sole h i) h.proper
  refine ⟨?_, ?_, ?_, hmoves.proper h.proper⟩
  · intro billId bill' hbill'
    obtain ⟨bill, hbill, hmove⟩ := hmoves.debited billId bill' hbill'
    exact (h.debited billId bill hbill).step i _ hmove
  · intro note' hnote'
    obtain ⟨note, hnote, hsame, hmove⟩ := hmoves.rows note' hnote'
    rw [hsame.1]
    exact (h.rows note hnote).step i _ hmove
  · exact step_standing h.reads (advance_reads (w.phase i) reply (h.reads i) hmoves.same)
      fun j p hp => reads_kept hmoves.same p hp

omit [DecidableEq ι] in
theorem start_accounts (calls : ι → BillCall) {tables : Tables} (h : tables.Applied) :
    Accounts (start calls tables) := by
  have hidle : ∀ i, Idle ((start calls tables).phase i) := by
    intro i
    change Idle (calls i).begin
    cases calls i <;> exact ⟨fun _ => rfl, fun _ => rfl⟩
  refine ⟨?_, ?_, ?_, ?_⟩
  · intro billId bill hbill
    rw [show bill.debitedPaise - (start calls tables).store.notes.issuedTotal billId = 0 by
      rw [h.debited billId bill hbill]; exact sub_self _]
    exact accounted_start _ _ _ fun i => (hidle i).1 billId
  · intro note hnote
    have hzero : ((tables.applications note.id).length : ℤ) - note.due = 0 := by
      unfold DebitNote.due
      cases hbill : note.purchaseBillId with
      | none => simp [h.unlinked note hnote hbill]
      | some billId =>
        cases hstatus : note.status with
        | draft => simp [h.draft note hnote hstatus]
        | issued => simp [h.issued note hnote hstatus billId hbill]
    change Accounted _ 0 (((tables.applications note.id).length : ℤ) - note.due) _
    rw [hzero]
    exact accounted_start _ _ _ fun i => (hidle i).2 note.id
  · intro i
    change Reads tables (calls i).begin
    cases calls i <;> trivial
  · intro a ha note hnote hid
    have hmem : a ∈ tables.applications note.id :=
      List.mem_filter.mpr ⟨ha, decide_eq_true hid.symm⟩
    cases hbill : note.purchaseBillId with
    | none =>
      rw [h.unlinked note hnote hbill] at hmem
      cases hmem
    | some billId =>
      cases hstatus : note.status with
      | draft =>
        rw [h.draft note hnote hstatus] at hmem
        cases hmem
      | issued =>
        rw [h.issued note hnote hstatus billId hbill] at hmem
        obtain rfl := List.mem_singleton.mp hmem
        exact ⟨rfl, rfl⟩

def Phase.Ended : Phase → Prop
  | .paying _ .finished | .paying _ (.raised _) | .noting _ .finished | .noting _ (.raised _) => True
  | _ => False

theorem ended_idle {phase : Phase} (h : phase.Ended) : Idle phase := by
  unfold Phase.Ended at h
  split at h
  all_goals first | exact ⟨fun _ => rfl, fun _ => rfl⟩ | exact h.elim

omit [DecidableEq ι] in
/-- Accounts whose calls have all ended are those of the issued notes. -/
theorem accounts_applied {w : World ι Tables Phase} (h : Accounts w)
    (hended : ∀ i, (w.phase i).Ended) : w.store.Applied := by
  have hlength : ∀ note ∈ w.store.notes.rows,
      ((w.store.applications note.id).length : ℤ) = note.due := by
    intro note hnote
    have hrows := h.rows note hnote
    unfold Accounted at hrows
    rw [Finset.sum_eq_zero fun i _ => (ended_idle (hended i)).2 note.id] at hrows
    omega
  refine ⟨?_, ?_, ?_, ?_⟩
  · intro billId bill hbill
    have hdebited := h.debited billId bill hbill
    unfold Accounted at hdebited
    rw [Finset.sum_eq_zero fun i _ => (ended_idle (hended i)).1 billId] at hdebited
    omega
  · intro note hnote hissued billId hbill
    have hone := hlength note hnote
    rw [DebitNote.due, if_pos ⟨hissued, by rw [hbill]; rfl⟩] at hone
    obtain ⟨a, ha⟩ := List.length_eq_one_iff.mp (by exact_mod_cast hone)
    have hmem : a ∈ w.store.applications note.id := by
      rw [ha]
      exact List.mem_singleton_self a
    obtain ⟨hrow, hid⟩ := List.mem_filter.mp hmem
    have hid := of_decide_eq_true hid
    obtain ⟨hown, htotal⟩ := h.proper a hrow note hnote hid.symm
    rw [ha, ← hid, ← htotal, Option.some.inj (hbill.symm.trans hown)]
  · intro note hnote hdraft
    have hnone := hlength note hnote
    rw [DebitNote.due, if_neg (by simp [hdraft])] at hnone
    exact List.length_eq_zero_iff.mp (by exact_mod_cast hnone)
  · intro note hnote hbill
    have hnone := hlength note hnote
    rw [DebitNote.due, if_neg (by simp [hbill])] at hnone
    exact List.length_eq_zero_iff.mp (by exact_mod_cast hnone)

/-- However calls to issue debit notes (and payments) run, once they have all ended every bill is
debited by the notes issued on it and each of these has its one application, where no statement
strands anything. -/
theorem notes_applied_once (calls : ι → BillCall) {tables : Tables} (happlied : tables.Applied)
    (events : List (ι × Outcome Failure))
    (hkept : Along (fun _ => advance) (fun _ => Kept) (start calls tables) events)
    (hended : ∀ i, ((runCalls (start calls tables) events).phase i).Ended) :
    (runCalls (start calls tables) events).store.Applied :=
  accounts_applied
    (run_keeps _ (fun _ i reply h hok => step_accounts h i reply hok) events
      (start_accounts calls happlied) hkept)
    hended

end

/-- Two draft debit notes on one bill. -/
def drafts : Tables where
  bills := fun id => if id = "timber" then some timber else none
  payments := fun _ => none
  allocations := .empty
  fxAdjustments := []
  notes := ⟨[⟨"DN-1", some "timber", 400, .draft, 0, by decide⟩,
    ⟨"DN-2", some "timber", 300, .draft, 0, by decide⟩], by decide⟩
  noteAllocations := .empty

theorem drafts_applied : drafts.Applied := by
  refine ⟨?_, ?_, fun _ _ _ => rfl, fun _ _ _ => rfl⟩
  · intro billId bill hbill
    dsimp only [drafts] at hbill
    split at hbill
    · rename_i hid
      obtain rfl := Option.some.inj hbill
      rw [hid]
      rfl
    · cases hbill
  · intro note hnote hissued
    have hdraft : ∀ note ∈ drafts.notes.rows, note.status = .draft := by decide
    rw [hdraft note hnote] at hissued
    cases hissued

/-- A note whose journal is refused, and the same note issued again. -/
def issuedAgain : List (Bool × Outcome Failure) :=
  List.replicate 5 (true, .done) ++ [(true, .refused .fault), (true, .done), (true, .done)] ++
    List.replicate 7 (false, .done)

theorem note_issued_again :
    (runCalls (start (fun _ : Bool => .issueDebitNote "DN-1") drafts) issuedAgain).store.Applied := by
  refine notes_applied_once (fun _ : Bool => .issueDebitNote "DN-1") drafts_applied issuedAgain ?_ ?_
  · refine ⟨trivial, trivial, trivial, trivial, trivial, trivial, rfl, ⟨nofun, ?_⟩, trivial, trivial,
      trivial, trivial, trivial, trivial, trivial, trivial⟩
    intro bill hbill
    obtain rfl := Option.some.inj hbill
    rfl
  · intro i
    cases i <;> trivial

/-- The first note's journal is refused once the second has been issued. -/
def rolledBackOver : List (Bool × Outcome Failure) :=
  List.replicate 5 (true, .done) ++ List.replicate 7 (false, .done) ++
    [(true, .refused .fault), (true, .done), (true, .done)]

/-- The rollback of one note takes the other off its bill. -/
theorem rollback_takes_the_other :
    drafts.Applied ∧
      ∃ w, w = runCalls (start (fun first : Bool =>
          .issueDebitNote (if first then "DN-1" else "DN-2")) drafts) rolledBackOver ∧
        (∀ i, (w.phase i).Ended) ∧ w.phase false = .noting "DN-2" .finished ∧
        (w.store.bills "timber").map Bill.debitedPaise = some 0 ∧
        w.store.notes.issuedTotal "timber" = 300 ∧ ¬ w.store.Applied := by
  refine ⟨drafts_applied, _, rfl, ?_, by decide +kernel, by decide +kernel, by decide +kernel,
    fun h => ?_⟩
  · intro i
    cases i <;> trivial
  · have hdebited := h.debited "timber" _ rfl
    revert hdebited
    decide +kernel

end Caflow.Settlement.Payables
