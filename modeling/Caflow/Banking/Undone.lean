import Caflow.Banking.LineSettled

set_option linter.all false

namespace Caflow.Banking.Undo
open Accounting Kernel Kernel.Reversal Settlement Settlement.PartyCredit

section
variable {s t u : Store}

/-- What an undo asks is that the line is posted and a date is open. -/
theorem undo_checks_cases (h : undoChecks now s = .ok (journalId, date)) :
    s.line.postedJournalId = some journalId ∧ s.line.matchStatus = .posted ∧
      reversalDate now (((s.entries.find? (·.id = journalId)).map Entry.entryDate).getD
        s.line.transactionDate) = .ok date := by
  unfold undoChecks at h
  split at h
  · rename_i found hfound
    split at h
    · cases h
    · rename_i hposted
      dsimp only at h
      split at h
      · cases h
      · split at h
        · cases h
        · cases hdate : reversalDate now (((s.entries.find? (·.id = found)).map
              Entry.entryDate).getD s.line.transactionDate) with
          | error failure =>
            rw [hdate] at h
            cases h
          | ok date' =>
            rw [hdate] at h
            cases h
            exact ⟨hfound, not_not.mp hposted, hdate⟩
  · cases h

/-- What reversing the entry does: nothing where an earlier attempt did it or where its number is
taken on the date, else it adds the reversal. -/
theorem reversed_cases (h : s.reversed ids now journalId date = .ok t) :
    t = { s with entries := t.entries } ∧
      ((∃ e ∈ s.entries, e.reversalOf = some journalId) ∧ t.entries = s.entries ∨
        ∃ original ∈ s.entries, original.id = journalId ∧
          (∀ e ∈ s.entries, e.reversalOf ≠ some journalId) ∧
          (NumberFree s.entries journalId date ∧ t.entries = (s.entries ++
              [(reversalPosting original date).entry (ids s.entries.length) (some journalId)]).map
                (stamp (some journalId)) ∨
            ¬ NumberFree s.entries journalId date ∧ t.entries = s.entries)) := by
  unfold Store.reversed at h
  split at h
  · rename_i hprior
    obtain ⟨e, he, hreversal⟩ := List.any_eq_true.mp hprior
    cases h
    exact ⟨rfl, .inl ⟨⟨e, he, of_decide_eq_true hreversal⟩, rfl⟩⟩
  · dsimp only at h
    rcases reverse_entry_cases ⟨ids, now.kernelRefusal⟩ .sound s.entries journalId date with
      ⟨raised, hraised⟩ | ⟨original, horiginal, rfl, -, -, hnone, hcall⟩
    · rw [hraised] at h
      cases h
    · rw [hcall] at h
      cases hanswer : (createJournal ⟨ids, now.kernelRefusal⟩ .sound s.entries
          (reversalPosting original date) (some original.id)).1 with
      | error failure =>
        rw [hanswer] at h
        cases h
      | ok id =>
        rw [hanswer] at h
        cases h
        refine ⟨rfl, .inr ⟨original, horiginal, rfl, hnone, ?_⟩⟩
        by_cases hfree : NumberFree s.entries original.id date
        · have hfresh : ∀ e ∈ s.entries, ¬ e.LiveAt (reversalPosting original date).referenceNo
              (reversalPosting original date).entryDate := hfree
          exact .inl ⟨hfree, (create_journal_fresh hfresh hanswer).2.2⟩
        · refine .inr ⟨hfree, ?_⟩
          rcases create_journal_entries ⟨ids, now.kernelRefusal⟩ .sound s.entries
            (reversalPosting original date) (some original.id) with hkeep | ⟨-, hfree', -⟩
          · exact hkeep
          · exact absurd hfree' hfree

/-- What a document shows as paid once the line's amount is given back. -/
def leftPaid (line : Line) (paid : ℤ) : ℤ :=
  paid - if line.settlesDocument then max 0 (min line.amount paid) else 0

theorem unsettled_document (s : Store) : ∃ status, s.unsettled =
    { s with document :=
      { s.document with paidPaise := leftPaid s.line s.document.paidPaise, status := status } } := by
  unfold Store.unsettled leftPaid
  dsimp only
  by_cases hsettles : s.line.settlesDocument
  · by_cases hback : 0 < min s.line.amount s.document.paidPaise
    · rw [if_pos ⟨hsettles, hback⟩, if_pos hsettles, max_eq_right hback.le]
      exact ⟨_, rfl⟩
    · rw [if_neg fun h => hback h.2, if_pos hsettles, max_eq_left (not_lt.mp hback)]
      exact ⟨s.document.status, by rw [sub_zero]⟩
  · rw [if_neg fun h => hsettles h.1, if_neg hsettles]
    exact ⟨s.document.status, by rw [sub_zero]⟩

/-- The books once the entry is reversed on a date. -/
def withReversal (ids : ℕ ↪ String) (entry : Entry) (date : String) (entries : List Entry) :
    List Entry :=
  (entries ++ [(reversalPosting entry date).entry (ids entries.length) (some entry.id)]).map
    (stamp (some entry.id))

/-- A call gets to the reversal and finds its number free. -/
def Frees (s : Store) (entry : Entry) (call : Setting × ℕ) : Prop :=
  1 ≤ call.2 ∧ ∀ date, reversalDate call.1 entry.entryDate = .ok date →
    NumberFree s.entries entry.id date

/-- What calls of `undo` that each ended after some of its writes have made of a posted line. -/
structure Progress (ids : ℕ ↪ String) (s : Store) (entry : Entry) (granted : ℤ)
    (calls : List (Setting × ℕ)) (t : Store) : Prop where
  line : t.line = s.line
  document : ∃ status, t.document = { s.document with
    paidPaise := (leftPaid s.line)^[calls.countP (3 ≤ ·.2)] s.document.paidPaise, status := status }
  entries : (t.entries = s.entries ∧ ∀ call ∈ calls, ¬ Frees s entry call) ∨
    (∃ call ∈ calls, Frees s entry call) ∧ ∃ date, t.entries = withReversal ids entry date s.entries
  credit : (t.balances = s.balances ∧ t.credits = s.credits ∧ ∀ call ∈ calls, call.2 < 2) ∨
    (∀ p, getBalance t p = getBalance s p - if p = s.party then granted else 0) ∧
      ∀ p, sourceNet t p = 0

theorem Posted.find (h : Posted s entry granted) :
    s.entries.find? (fun e => e.id = entry.id) = some entry := by
  cases hfind : s.entries.find? (fun e => e.id = entry.id) with
  | none =>
    have hnone := List.find?_eq_none.mp hfind entry h.booked
    simp at hnone
  | some found =>
    have hid : found.id = entry.id := by simpa using List.find?_some hfind
    rw [h.only found (List.mem_of_find?_eq_some hfind) hid]

theorem stamp_date (r : Option String) (e : Entry) : (stamp r e).entryDate = e.entryDate := by
  unfold stamp
  split <;> rfl

theorem Progress.found (hs : Posted s entry granted) (h : Progress ids s entry granted calls t) :
    (t.entries.find? fun e => e.id = entry.id).map Entry.entryDate = some entry.entryDate := by
  rcases h.entries with ⟨hsame, -⟩ | ⟨-, date, hreversed⟩
  · rw [hsame, hs.find]
    rfl
  · have hcomp : (fun e : Entry => decide (e.id = entry.id)) ∘ stamp (some entry.id) =
        fun e => decide (e.id = entry.id) := by
      funext e
      rw [Function.comp_apply, stamp_id]
    rw [hreversed, withReversal, List.find?_map, hcomp, List.find?_append, hs.find,
      Option.some_or, Option.map_some, Option.map_some, stamp_date]

theorem Progress.start (ids : ℕ ↪ String) (s : Store) (entry : Entry) (granted : ℤ) :
    Progress ids s entry granted [] s where
  line := rfl
  document := ⟨s.document.status, rfl⟩
  entries := .inl ⟨rfl, fun _ hcall => absurd hcall List.not_mem_nil⟩
  credit := .inl ⟨rfl, rfl, fun _ hcall => absurd hcall List.not_mem_nil⟩

/-- The entries after a call that gets to the reversal. -/
theorem Progress.reverses (hs : Posted s entry granted) (h : Progress ids s entry granted calls t)
    (hdate : reversalDate now entry.entryDate = .ok date) (hn : 1 ≤ n)
    (hok : t.reversed ids now entry.id date = .ok u) :
    (u.entries = s.entries ∧ ∀ call ∈ calls ++ [(now, n)], ¬ Frees s entry call) ∨
      (∃ call ∈ calls ++ [(now, n)], Frees s entry call) ∧
        ∃ date, u.entries = withReversal ids entry date s.entries := by
  obtain ⟨-, hcases⟩ := reversed_cases hok
  rcases h.entries with ⟨hsame, hnone⟩ | ⟨⟨call, hcall, hfrees⟩, earlier, hreversed⟩
  · rw [hsame] at hcases
    rcases hcases with ⟨⟨e, he, hreversal⟩, -⟩ | ⟨original, horiginal, hid, -, hrest⟩
    · exact absurd hreversal (hs.unreversed e he)
    · obtain rfl := hs.only original horiginal hid
      rcases hrest with ⟨hfree, hadd⟩ | ⟨hfree, hkeep⟩
      · refine .inr ⟨⟨(now, n), List.mem_append_right _ (List.mem_singleton_self _), hn, ?_⟩,
          date, hadd⟩
        intro date' hdate'
        rw [hdate] at hdate'
        exact Except.ok.inj hdate' ▸ hfree
      · refine .inl ⟨hkeep, fun call hcall => ?_⟩
        rcases List.mem_append.mp hcall with hold | hlast
        · exact hnone call hold
        · rw [List.mem_singleton.mp hlast]
          exact fun hfrees => hfree (hfrees.2 date hdate)
  · refine .inr ⟨⟨call, List.mem_append_left _ hcall, hfrees⟩, earlier, ?_⟩
    have hprior : ∃ e ∈ t.entries, e.reversalOf = some entry.id := by
      rw [hreversed]
      refine ⟨_, List.mem_map_of_mem (List.mem_append_right _ (List.mem_singleton_self _)), ?_⟩
      rw [stamp_reversal_of]
      rfl
    rcases hcases with ⟨-, hkeep⟩ | ⟨-, -, -, hnone, -⟩
    · rw [hkeep, hreversed]
    · obtain ⟨e, he, hreversal⟩ := hprior
      exact absurd hreversal (hnone e he)

theorem Progress.party (h : Progress ids s entry granted calls t) : t.party = s.party := by
  obtain ⟨status, hdocument⟩ := h.document
  unfold Store.party
  rw [hdocument, h.line]

/-- The credits after a call that gets to the revocation. -/
theorem Progress.revokes {a b : Store} (hs : Posted s entry granted) (h : Progress ids s entry granted calls t)
    (ha : a = { t with entries := a.entries }) (hok : a.revoked = .ok b) :
    (b.line = t.line ∧ b.document = t.document ∧ b.entries = a.entries) ∧
      (∀ p, getBalance b p = getBalance s p - if p = s.party then granted else 0) ∧
        ∀ p, sourceNet b p = 0 := by
  have hparty : a.party = s.party := by
    rw [ha]
    exact h.party
  have hline : a.line = t.line := by rw [ha]
  have hdocument : a.document = t.document := by rw [ha]
  have hbalance : a.balances = t.balances := by rw [ha]
  have hcredits : a.credits = t.credits := by rw [ha]
  rcases h.credit with ⟨hsame, hrows, -⟩ | ⟨hless, hgone⟩
  · have hgranted : Granted a granted := by
      refine ⟨hs.credited.1, fun p => ?_⟩
      rw [hparty, ← hs.credited.2 p]
      unfold sourceNet
      rw [hcredits, hrows, hline, h.line]
    have hrevoked := revoked_cases hgranted hok
    refine ⟨⟨hrevoked.line.trans hline, hrevoked.document.trans hdocument, hrevoked.entries⟩,
      fun p => ?_, hrevoked.gone⟩
    rw [hrevoked.balance p, hparty]
    unfold getBalance
    rw [hbalance, hsame]
  · have hgranted : Granted a 0 := by
      refine ⟨le_rfl, fun p => ?_⟩
      rw [ite_self, ← hgone p]
      unfold sourceNet
      rw [hcredits, hline]
    have hrevoked := revoked_cases hgranted hok
    refine ⟨⟨hrevoked.line.trans hline, hrevoked.document.trans hdocument, hrevoked.entries⟩,
      fun p => ?_, hrevoked.gone⟩
    rw [hrevoked.balance p, ite_self, sub_zero, ← hless p]
    unfold getBalance
    rw [hbalance]

theorem checked_entry (hs : Posted s entry granted) (h : Progress ids s entry granted calls t)
    (hchecked : undoChecks now t = .ok checked) :
    checked.1 = entry.id ∧ reversalDate now entry.entryDate = .ok checked.2 := by
  obtain ⟨hpointed, -, hdate⟩ := undo_checks_cases hchecked
  rw [h.line, hs.pointed] at hpointed
  have hid : entry.id = checked.1 := Option.some.inj hpointed
  rw [← hid, h.found hs] at hdate
  exact ⟨hid.symm, hdate⟩

/-- One more call that ends before the line is put back. -/
theorem Progress.step (hs : Posted s entry granted) (h : Progress ids s entry granted calls t)
    (hn : n ≤ 3) (hok : undoUntil ids now n t = .ok u) :
    Progress ids s entry granted (calls ++ [(now, n)]) u := by
  obtain ⟨checked, hchecked, hok⟩ := bind_answered hok
  obtain ⟨hid, hdate⟩ := checked_entry hs h hchecked
  have hcount : (calls ++ [(now, n)]).countP (fun c => 3 ≤ c.2) =
      calls.countP (fun c => 3 ≤ c.2) + if 3 ≤ n then 1 else 0 := by
    rw [List.countP_append, List.countP_singleton]
    simp only [decide_eq_true_eq]
  have hmember : ∀ call ∈ calls ++ [(now, n)], call ∈ calls ∨ call = (now, n) := by
    intro call hcall
    simpa using hcall
  obtain rfl | rfl | rfl | rfl : n = 0 ∨ n = 1 ∨ n = 2 ∨ n = 3 := by omega
  · cases hok
    refine ⟨h.line, ?_, ?_, ?_⟩
    · rw [hcount]
      exact h.document
    · rcases h.entries with ⟨hsame, hnone⟩ | ⟨⟨call, hcall, hfrees⟩, hreversed⟩
      · refine .inl ⟨hsame, fun call hcall => ?_⟩
        rcases hmember call hcall with hold | rfl
        · exact hnone call hold
        · exact fun hfrees => Nat.not_succ_le_zero 0 hfrees.1
      · exact .inr ⟨⟨call, List.mem_append_left _ hcall, hfrees⟩, hreversed⟩
    · rcases h.credit with ⟨hsame, hrows, hbefore⟩ | hgone
      · refine .inl ⟨hsame, hrows, fun call hcall => ?_⟩
        rcases hmember call hcall with hold | rfl
        · exact hbefore call hold
        · exact Nat.zero_lt_two
      · exact .inr hgone
  · obtain ⟨a, ha, hok⟩ := bind_answered hok
    cases hok
    rw [hid] at ha
    have hkeep := (reversed_cases ha).1
    refine ⟨?_, ?_, h.reverses hs hdate le_rfl ha, ?_⟩
    · rw [hkeep]
      exact h.line
    · rw [hcount, hkeep]
      exact h.document
    · rw [hkeep]
      rcases h.credit with ⟨hsame, hrows, hbefore⟩ | hgone
      · refine .inl ⟨hsame, hrows, fun call hcall => ?_⟩
        rcases hmember call hcall with hold | rfl
        · exact hbefore call hold
        · exact Nat.one_lt_two
      · exact .inr hgone
  · obtain ⟨a, ha, hok⟩ := bind_answered hok
    obtain ⟨b, hb, hok⟩ := bind_answered hok
    cases hok
    rw [hid] at ha
    obtain ⟨⟨hline, hdocument, hentries⟩, hcredit⟩ := h.revokes hs (reversed_cases ha).1 hb
    refine ⟨hline.trans h.line, ?_, ?_, .inr hcredit⟩
    · rw [hcount, hdocument]
      exact h.document
    · rw [hentries]
      exact h.reverses hs hdate (by decide) ha
  · obtain ⟨a, ha, hok⟩ := bind_answered hok
    obtain ⟨b, hb, hok⟩ := bind_answered hok
    cases hok
    rw [hid] at ha
    obtain ⟨⟨hline, hdocument, hentries⟩, hcredit⟩ := h.revokes hs (reversed_cases ha).1 hb
    obtain ⟨status, hunsettled⟩ := unsettled_document b
    change Progress ids s entry granted _ b.unsettled
    rw [hunsettled]
    refine ⟨hline.trans h.line, ?_, ?_, .inr hcredit⟩
    · obtain ⟨earlier, hearlier⟩ := h.document
      refine ⟨status, ?_⟩
      dsimp only
      rw [hcount, hdocument, hearlier, hline, h.line, if_pos le_rfl, Function.iterate_succ_apply']
    · change (b.entries = _ ∧ _) ∨ _ ∧ ∃ date, b.entries = _
      rw [hentries]
      exact h.reverses hs hdate (by decide) ha

end

end Caflow.Banking.Undo
