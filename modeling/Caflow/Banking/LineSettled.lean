import Caflow.Banking.Undo

set_option linter.all false

namespace Caflow.Banking.Undo
open Accounting Kernel Kernel.Reversal Settlement Settlement.PartyCredit

section
variable {s t u : Store}

theorem credit_cases {party : Party} {call : CreditCall} (h : s.credit party call = .ok t) :
    t = s.record party call := by
  unfold Store.credit at h
  split at h
  · cases h
  · cases h
  · exact (Except.ok.inj h).symm

theorem grant_recorded (party : Party) (source : Option String) (hpaise : 0 < paise) :
    s.credit party ⟨.grant overpayment source, paise⟩ =
      .ok (s.record party ⟨.grant overpayment source, paise⟩) := by
  simp [Store.credit, begin, balanceRead, not_le.mpr hpaise]

/-- The party's balance and what it was granted by the line change together. -/
theorem balance_record (s : Store) (party : Party) (call : CreditCall) (p : Party) :
    getBalance (s.record party call) p =
      getBalance s p + if p = party then call.delta else 0 := by
  unfold getBalance Store.record
  by_cases hp : p = party
  · subst hp
    simp [getBalance]
  · simp [hp]

/-- What the line granted a party and has not taken back. -/
def sourceNet (s : Store) (p : Party) : ℤ :=
  Tally.tally (sourceRows s.credits overpayment s.line.id) p

theorem source_net_record (s : Store) (party : Party) {call : CreditCall} (p : Party)
    (hsource : call.row.sourceType = some overpayment ∧ call.row.sourceId = some s.line.id)
    (hamount : call.row.amountPaise = call.delta) :
    sourceNet (s.record party call) p = sourceNet s p + if p = party then call.delta else 0 := by
  have hrows : sourceRows (s.record party call).credits overpayment s.line.id =
      sourceRows s.credits overpayment s.line.id ++ [(party, call.delta)] := by
    unfold sourceRows Store.record
    dsimp only
    rw [List.filter_append, List.filter_cons_of_pos (by simpa using hsource), List.filter_nil,
      List.map_append, List.map_singleton, hamount]
  unfold sourceNet
  rw [show (s.record party call).line.id = s.line.id from rfl, hrows, Tally.tally_append,
    Tally.tally_cons, Tally.tally_nil, add_zero]
  simp only [eq_comm]

/-- Only the document's party holds a credit from the line, and the whole of it. -/
def Granted (s : Store) (granted : ℤ) : Prop :=
  0 ≤ granted ∧ ∀ p, sourceNet s p = if p = s.party then granted else 0

theorem outstanding_granted (h : Granted s granted) :
    outstandingForSource s.credits overpayment s.line.id =
      if 0 < granted then [(s.party, granted)] else [] := by
  have hparty : Tally.tally (sourceRows s.credits overpayment s.line.id) s.party = granted :=
    (h.2 s.party).trans (if_pos rfl)
  have hothers : ∀ p, p ≠ s.party →
      ¬ 0 < Tally.tally (sourceRows s.credits overpayment s.line.id) p := by
    intro p hp
    rw [show Tally.tally _ p = _ from h.2 p, if_neg hp]
    exact lt_irrefl 0
  have honly := Tally.grouped_only (lt_irrefl 0) hothers
  rw [hparty] at honly
  unfold outstandingForSource
  exact honly

/-- What a revocation leaves: nothing but the credits is changed, and the line's is gone. -/
structure Revoked (s t : Store) (granted : ℤ) : Prop where
  line : t.line = s.line
  document : t.document = s.document
  entries : t.entries = s.entries
  balance : ∀ p, getBalance t p = getBalance s p - if p = s.party then granted else 0
  gone : ∀ p, sourceNet t p = 0

theorem revoked_cases (h : Granted s granted) (hok : s.revoked = .ok t) : Revoked s t granted := by
  unfold Store.revoked at hok
  rw [outstanding_granted h] at hok
  split at hok
  · simp only [List.foldlM_cons, List.foldlM_nil, bind_pure] at hok
    rw [credit_cases hok]
    refine ⟨rfl, rfl, rfl, fun p => ?_, fun p => ?_⟩
    · rw [balance_record]
      split
      · rfl
      · rfl
    · rw [source_net_record s _ p ⟨rfl, rfl⟩ rfl, h.2 p]
      split
      · exact add_neg_cancel granted
      · rfl
  · rename_i hzero
    have hnone : granted = 0 := le_antisymm (not_lt.mp hzero) h.1
    cases hok
    subst hnone
    exact ⟨rfl, rfl, rfl, fun p => by simp, fun p => by rw [h.2 p, ite_self]⟩

/-- What of the line's amount goes to the document. -/
def allocated (s : Store) : ℤ := min s.line.amount (outstanding s.document s.line.matchedType)

theorem outstanding_nonneg (doc : Target) (type : AppliedTo) : 0 ≤ outstanding doc type := by
  cases type with
  | salesInvoice => exact le_max_right _ _
  | purchaseBill => exact le_max_right _ _

/-- What settling the document leaves: the amount is shared between it and its party's credit. -/
structure SettledBy (s t : Store) : Prop where
  line : t.line = s.line
  entries : t.entries = s.entries
  document : ∃ status, t.document =
    { s.document with paidPaise := s.document.paidPaise + allocated s, status := status }
  balance : ∀ p, getBalance t p =
    getBalance s p + if p = s.party then s.line.amount - allocated s else 0
  source : ∀ p, sourceNet t p =
    sourceNet s p + if p = s.party then s.line.amount - allocated s else 0

theorem settle_doc_cases (hamount : 0 < s.line.amount) (h : s.settleDoc = .ok t) : SettledBy s t := by
  have howed := outstanding_nonneg s.document s.line.matchedType
  have hdocument : ∃ status, (if allocated s ≤ 0 then s.document
      else { s.document with
        paidPaise := s.document.paidPaise + allocated s
        status :=
          if outstanding s.document s.line.matchedType ≤ allocated s then .paid
          else .partiallyPaid }) =
      { s.document with paidPaise := s.document.paidPaise + allocated s, status := status } := by
    split
    · rename_i hnone
      have hzero : allocated s = 0 := le_antisymm hnone (le_min hamount.le howed)
      exact ⟨s.document.status, by rw [hzero, add_zero]⟩
    · exact ⟨_, rfl⟩
  unfold Store.settleDoc at h
  dsimp only at h
  split at h
  · rename_i hexcess
    rw [grant_recorded _ _ hexcess] at h
    cases h
    exact ⟨rfl, rfl, hdocument, balance_record s _ _, fun p => source_net_record s _ p ⟨rfl, rfl⟩ rfl⟩
  · rename_i hexcess
    have hwhole : s.line.amount - allocated s = 0 :=
      le_antisymm (not_lt.mp hexcess) (sub_nonneg.mpr (min_le_left _ _))
    cases h
    exact ⟨rfl, rfl, hdocument, fun p => by simp [getBalance, hwhole],
      fun p => by simp [sourceNet, hwhole]⟩

theorem build_lines_cases {amount : ℤ} {isCredit : Bool} {bank counter : String}
    {lines : List JournalLine} (h : buildLines amount isCredit bank counter = .ok lines) :
    bank ≠ counter ∧ lines =
      if isCredit then [⟨bank, amount, 0⟩, ⟨counter, 0, amount⟩]
      else [⟨counter, amount, 0⟩, ⟨bank, 0, amount⟩] := by
  unfold buildLines at h
  split_ifs at h with hamount haccounts hsame hcredit
  · exact ⟨hsame, by rw [if_pos hcredit]; exact (Except.ok.inj h).symm⟩
  · exact ⟨hsame, by rw [if_neg hcredit]; exact (Except.ok.inj h).symm⟩

theorem plan_amount (h : plan now line gstRate = .ok planned) : 0 < line.amount := by
  unfold plan at h
  split at h
  · cases h
  · rename_i hamount
    exact not_le.mp hamount

/-- A line that settles its document is posted by its amount, between its bank and the control
account. -/
theorem plan_settling (hsettles : line.settlesDocument) (h : plan now line gstRate = .ok planned) :
    ∃ bank counter, buildLines line.amount line.isCredit bank counter = .ok planned.2 := by
  have hamount := plan_amount h
  unfold plan at h
  rw [if_neg (not_le.mpr hamount), if_neg (by simp [hsettles])] at h
  cases hbank : now.bankAccount with
  | error failure =>
    rw [hbank] at h
    cases h
  | ok bank =>
    rw [hbank] at h
    cases hcounter : now.counterAccount with
    | error failure =>
      rw [hcounter] at h
      dsimp only at h
      split_ifs at h
    | ok counter =>
      rw [hcounter] at h
      dsimp only at h
      rw [if_neg fun hsplit => by simp [hsplit] at h, if_neg fun hrate => by simp [hrate] at h] at h
      refine ⟨bank, counter, ?_⟩
      cases hlines : buildLines line.amount line.isCredit bank counter with
      | error failure =>
        rw [hlines] at h
        cases h
      | ok lines =>
        rw [hlines] at h
        cases h
        rfl

/-- Everything a post that answers did. -/
theorem post_cases (h : post ids now gstRate s = .ok t) :
    s.line.matchStatus ≠ .posted ∧ ∃ planned journalId entries,
      plan now s.line gstRate = .ok planned ∧
      createJournal ⟨ids, now.kernelRefusal⟩ .sound s.entries
        (s.line.posting planned.1 planned.2) none = (.ok journalId, entries) ∧
      { s with entries := entries }.settleOnPost journalId = .ok t := by
  unfold post at h
  split at h
  · cases h
  · rename_i hfresh
    obtain ⟨-, -, h⟩ := bind_answered h
    obtain ⟨-, -, h⟩ := bind_answered h
    obtain ⟨-, -, h⟩ := bind_answered h
    obtain ⟨planned, hplan, h⟩ := bind_answered h
    obtain ⟨journalId, hcreated, h⟩ := bind_answered h
    refine ⟨fun hposted => hfresh (.inr hposted), planned, journalId, _, hplan, ?_, h⟩
    exact Prod.ext hcreated rfl

/-- The entry of a line that is to be posted, and what claiming the line by it leaves. -/
def Store.claimed (s : Store) (entry : Entry) : Store :=
  { s with
    line := { s.line with matchStatus := .posted, postedJournalId := some entry.id }
    entries := s.entries ++ [entry] }

/-- The line's own entries that are neither reversed nor reversals. -/
def liveOf (s : Store) : List Entry :=
  s.entries.filter fun e => e.sourceType = some "bank_transaction" ∧ e.sourceId = some s.line.id ∧
    e.isReversed = false ∧ e.reversalOf = none

/-- Books in which the line is not posted: no entry of it is live, none is live under its number,
and it has granted nothing that was not taken back. -/
structure Unposted (ids : ℕ ↪ String) (s : Store) : Prop where
  unposted : s.line.matchStatus ≠ .posted
  paidPos : 0 ≤ s.document.paidPaise
  numbered : ∀ i, (h : i < s.entries.length) → s.entries[i].id = ids i
  linked : ∀ e ∈ s.entries, ∀ id, e.reversalOf = some id → ∃ original ∈ s.entries, original.id = id
  unlive : liveOf s = []
  free : ∀ e ∈ s.entries, ¬ e.LiveAt s.line.reference s.line.transactionDate
  granted : ∀ p, sourceNet s p = 0

theorem stamp_none (e : Entry) : stamp none e = e := if_neg nofun

/-- A post claims the line by an entry of its own, and then settles the document. -/
theorem post_claims (h : Unposted ids s) (hpost : post ids now gstRate s = .ok t) :
    ∃ planned, plan now s.line gstRate = .ok planned ∧
      let claimed := s.claimed
        ((s.line.posting planned.1 planned.2).entry (ids s.entries.length) none)
      if s.line.settlesDocument then SettledBy claimed t else t = claimed := by
  obtain ⟨-, planned, journalId, entries, hplan, hcreated, hsettle⟩ := post_cases hpost
  refine ⟨planned, hplan, ?_⟩
  have hfresh : ∀ e ∈ s.entries, ¬ e.LiveAt (s.line.posting planned.1 planned.2).referenceNo
      (s.line.posting planned.1 planned.2).entryDate := h.free
  obtain ⟨-, hid, hadd⟩ := create_journal_fresh hfresh (congrArg Prod.fst hcreated)
  rw [hcreated] at hadd
  have hentries : entries = s.entries ++
      [(s.line.posting planned.1 planned.2).entry (ids s.entries.length) none] := by
    rw [show entries = _ from hadd]
    exact (List.map_congr_left fun e _ => stamp_none e).trans (List.map_id _)
  subst hid hentries
  unfold Store.settleOnPost at hsettle
  dsimp only at hsettle ⊢
  split
  · rename_i hsettles
    rw [if_pos hsettles] at hsettle
    exact settle_doc_cases (plan_amount hplan) hsettle
  · rename_i hsettles
    rw [if_neg hsettles] at hsettle
    exact (Except.ok.inj hsettle).symm

/-- A posted line: its entry is in the books and was not reversed, and what it granted stands. -/
structure Posted (s : Store) (entry : Entry) (granted : ℤ) : Prop where
  pointed : s.line.postedJournalId = some entry.id
  booked : entry ∈ s.entries
  only : ∀ e ∈ s.entries, e.id = entry.id → e = entry
  unreversed : ∀ e ∈ s.entries, e.reversalOf ≠ some entry.id
  credited : Granted s granted

variable {ids : ℕ ↪ String} {entryType : String} {lines : List JournalLine}

/-- The entry a line is posted by. -/
def entryOf (ids : ℕ ↪ String) (s : Store) (entryType : String) (lines : List JournalLine) : Entry :=
  (s.line.posting entryType lines).entry (ids s.entries.length) none

/-- What posting a line that settles its document makes of books in which it is not posted. -/
structure PostedFrom (ids : ℕ ↪ String) (s t : Store) (entryType : String)
    (lines : List JournalLine) : Prop where
  amount : 0 < s.line.amount
  built : ∃ bank counter, buildLines s.line.amount s.line.isCredit bank counter = .ok lines
  settled : SettledBy (s.claimed (entryOf ids s entryType lines)) t

theorem posted_from (h : Unposted ids s) (hsettles : s.line.settlesDocument)
    (hpost : post ids now gstRate s = .ok t) :
    ∃ entryType lines, PostedFrom ids s t entryType lines := by
  obtain ⟨planned, hplan, hsettled⟩ := post_claims h hpost
  rw [if_pos hsettles] at hsettled
  exact ⟨planned.1, planned.2, plan_amount hplan, plan_settling hsettles hplan, hsettled⟩

theorem id_new (h : Unposted ids s) (he : e ∈ s.entries) : e.id ≠ ids s.entries.length := by
  obtain ⟨i, hi, rfl⟩ := List.mem_iff_getElem.mp he
  rw [h.numbered i hi]
  exact fun hid => hi.ne (ids.injective hid)

theorem PostedFrom.entries (hp : PostedFrom ids s t entryType lines) :
    t.entries = s.entries ++ [entryOf ids s entryType lines] := hp.settled.entries

theorem PostedFrom.party (hp : PostedFrom ids s t entryType lines) : t.party = s.party := by
  obtain ⟨status, hdocument⟩ := hp.settled.document
  unfold Store.party
  rw [hdocument, hp.settled.line]
  rfl

theorem PostedFrom.posted (h : Unposted ids s) (hp : PostedFrom ids s t entryType lines) :
    Posted t (entryOf ids s entryType lines) (s.line.amount - allocated s) where
  pointed := by
    rw [hp.settled.line]
    rfl
  booked := by
    rw [hp.entries]
    exact List.mem_append_right _ (List.mem_singleton_self _)
  only := by
    intro e he hid
    rw [hp.entries] at he
    rcases List.mem_append.mp he with hold | hlast
    · exact absurd hid (id_new h hold)
    · exact List.mem_singleton.mp hlast
  unreversed := by
    intro e he hreversal
    rw [hp.entries] at he
    rcases List.mem_append.mp he with hold | hlast
    · obtain ⟨original, horiginal, hid⟩ := h.linked e hold _ hreversal
      exact id_new h horiginal hid
    · rw [List.mem_singleton.mp hlast] at hreversal
      cases hreversal
  credited := by
    refine ⟨sub_nonneg.mpr (min_le_left _ _), fun p => ?_⟩
    rw [hp.settled.source p, hp.party]
    have hnone : sourceNet (s.claimed (entryOf ids s entryType lines)) p = 0 := h.granted p
    rw [hnone, zero_add]
    rfl

end

end Caflow.Banking.Undo
