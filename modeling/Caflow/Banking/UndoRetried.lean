import Caflow.Banking.Undone

set_option linter.all false

namespace Caflow.Banking.Undo
open Accounting Kernel Kernel.Reversal Settlement Settlement.PartyCredit

/-- Calls of `undo` that each ended after some of their writes, one after the other. -/
def attempts (ids : ℕ ↪ String) (calls : List (Setting × ℕ)) (store : Store) :
    Except Failure Store :=
  calls.foldlM (fun store call => undoUntil ids call.1 call.2 store) store

section
variable {s t u v : Store} {entry : Entry} {granted : ℤ} {calls : List (Setting × ℕ)}

theorem attempts_append (ids : ℕ ↪ String) (calls : List (Setting × ℕ)) (call : Setting × ℕ)
    (s : Store) :
    attempts ids (calls ++ [call]) s =
      attempts ids calls s >>= undoUntil ids call.1 call.2 := by
  unfold attempts
  rw [List.foldlM_append]
  exact bind_congr fun t => bind_pure _

/-- Whatever the calls did, a posted line is as far as the furthest of them. -/
theorem attempts_progress (hs : Posted s entry granted) (hstops : ∀ call ∈ calls, call.2 ≤ 3)
    (h : attempts ids calls s = .ok t) : Progress ids s entry granted calls t := by
  induction calls using List.reverseRecOn generalizing t with
  | nil =>
    cases h
    exact .start ids s entry granted
  | append_singleton calls call ih =>
    rw [attempts_append] at h
    obtain ⟨a, ha, hok⟩ := bind_answered h
    have hbefore := ih (fun c hc => hstops c (List.mem_append_left _ hc)) ha
    exact hbefore.step hs (hstops call (List.mem_append_right _ (List.mem_singleton_self _))) hok

/-- An undo that answers has made all its writes but one, and then puts the line back. -/
theorem undo_cases (h : undo ids now t = .ok u) :
    ∃ v, undoUntil ids now 3 t = .ok v ∧ u = v.putBack := by
  obtain ⟨checked, hchecked, h⟩ := bind_answered h
  have hsplit : stages.take stages.length = stages.take 3 ++ [.putBack] := rfl
  dsimp only at h
  rw [hsplit, List.foldlM_append] at h
  obtain ⟨v, hv, h⟩ := bind_answered h
  refine ⟨v, ?_, ?_⟩
  · rw [undoUntil, hchecked]
    exact hv
  · obtain ⟨w, hw, h⟩ := bind_answered h
    cases hw
    exact (Except.ok.inj h).symm

/-- The line's own share of what its document shows as paid. -/
def ownShare (s : Store) (granted : ℤ) : ℤ :=
  if s.line.settlesDocument then max 0 (min (s.line.amount - granted) s.document.paidPaise) else 0

/-- The line is back in the queue, its entry is reversed once, the credit it granted is gone and
the document has lost the line's share. -/
structure Undone (s u : Store) (entry : Entry) (granted : ℤ) : Prop where
  line : u.line = { s.line with matchStatus := .matched, postedJournalId := none }
  reversal : (u.entries.filter (·.reversalOf = some entry.id)).length = 1
  credit : (∀ p, getBalance u p = getBalance s p - if p = s.party then granted else 0) ∧
    ∀ p, sourceNet u p = 0
  document : u.document.paidPaise = s.document.paidPaise - ownShare s granted

theorem reversal_once (hs : Posted s entry granted) (ids : ℕ ↪ String) (date : String) :
    ((withReversal ids entry date s.entries).filter (·.reversalOf = some entry.id)).length = 1 := by
  have hnone : s.entries.filter (·.reversalOf = some entry.id) = [] :=
    List.filter_eq_nil_iff.mpr fun e he => by simpa using hs.unreversed e he
  have hstamp : (fun e : Entry => decide (e.reversalOf = some entry.id)) ∘ stamp (some entry.id) =
      fun e => decide (e.reversalOf = some entry.id) := by
    funext e
    rw [Function.comp_apply, stamp_reversal_of]
  rw [withReversal, List.filter_map, List.length_map, hstamp, List.filter_append, hnone,
    List.nil_append, List.filter_cons_of_pos (by simp [Posting.entry]), List.filter_nil]
  rfl

theorem left_paid_le (line : Line) (paid : ℤ) : leftPaid line paid ≤ paid := by
  unfold leftPaid
  split
  · exact sub_le_self _ (le_max_left _ _)
  · exact (sub_zero paid).le

theorem left_paid_iterate_le (line : Line) (k : ℕ) (paid : ℤ) : (leftPaid line)^[k] paid ≤ paid := by
  induction k with
  | zero => exact le_rfl
  | succ k ih =>
    rw [Function.iterate_succ_apply']
    exact (left_paid_le line _).trans ih

/-- Nothing is left to give back where giving back changes nothing. -/
theorem left_paid_fixed (h : leftPaid line paid = paid) (k : ℕ) : (leftPaid line)^[k] paid = paid :=
  Function.iterate_fixed h k

theorem left_paid_settling (hsettles : line.settlesDocument) (paid : ℤ) :
    leftPaid line paid = paid - max 0 (min line.amount paid) := by
  rw [leftPaid, if_pos hsettles]

/-- What is given back over some calls is the line's share just where nothing else was paid, or
the line granted nothing and gave back once. -/
theorem left_paid_iff (hsettles : line.settlesDocument) (hamount : 0 < line.amount)
    (hgranted : 0 ≤ granted) (hle : granted ≤ line.amount) (paid : ℤ) (k : ℕ) :
    (leftPaid line)^[k + 1] paid = paid - max 0 (min (line.amount - granted) paid) ↔
      paid ≤ line.amount - granted ∨ granted = 0 ∧ k = 0 := by
  rw [Function.iterate_succ_apply]
  by_cases hpaid : paid ≤ line.amount - granted
  · have hfirst : leftPaid line paid = paid - max 0 paid := by
      rw [left_paid_settling hsettles, min_eq_right (hpaid.trans (sub_le_self _ hgranted))]
    have hfixed : leftPaid line (paid - max 0 paid) = paid - max 0 paid := by
      have hnonpos : paid - max 0 paid ≤ 0 := sub_nonpos.mpr (le_max_right _ _)
      rw [left_paid_settling hsettles, min_eq_right (hnonpos.trans hamount.le),
        max_eq_left hnonpos, sub_zero]
    rw [hfirst, left_paid_fixed hfixed, min_eq_right hpaid]
    simp [hpaid]
  · -- other settlements are on the document too: each more than the share is lost
    have hpos : 0 < paid := lt_of_le_of_lt (sub_nonneg.mpr hle) (not_le.mp hpaid)
    have hshare : max 0 (min (line.amount - granted) paid) = line.amount - granted := by
      rw [min_eq_left (not_le.mp hpaid).le, max_eq_right (sub_nonneg.mpr hle)]
    have hfirst : leftPaid line paid = paid - min line.amount paid := by
      rw [left_paid_settling hsettles, max_eq_right (le_min hamount.le hpos.le)]
    rw [hshare, hfirst]
    simp only [hpaid, false_or]
    constructor
    · intro h
      have hall : min line.amount paid ≤ line.amount - granted := by
        have := left_paid_iterate_le line k (paid - min line.amount paid)
        omega
      have hnone : granted = 0 := by omega
      refine ⟨hnone, ?_⟩
      cases k with
      | zero => rfl
      | succ k =>
        subst hnone
        rw [Function.iterate_succ_apply, left_paid_settling hsettles] at h
        have := left_paid_iterate_le line k
          (paid - min line.amount paid - max 0 (min line.amount (paid - min line.amount paid)))
        omega
    · rintro ⟨rfl, rfl⟩
      rw [sub_zero, Function.iterate_zero_apply]
      omega

/-- Where the document's own books allow the retries: it settles nothing, or shows no more paid
than the line put on it, or nothing was granted and no earlier call got as far as giving back. -/
def GivesBackOnce (s : Store) (granted : ℤ) (calls : List (Setting × ℕ)) : Prop :=
  s.line.settlesDocument = false ∨ s.document.paidPaise ≤ s.line.amount - granted ∨
    granted = 0 ∧ ∀ call ∈ calls, call.2 < 3

theorem left_paid_calls (hs : Posted s entry granted) (hamount : 0 < s.line.amount)
    (hle : granted ≤ s.line.amount) (calls : List (Setting × ℕ)) (now : Setting) :
    (leftPaid s.line)^[(calls ++ [(now, 3)]).countP fun call : Setting × ℕ => 3 ≤ call.2] s.document.paidPaise =
      s.document.paidPaise - ownShare s granted ↔ GivesBackOnce s granted calls := by
  have hcount : ((calls ++ [(now, 3)]).countP fun call : Setting × ℕ => 3 ≤ call.2) =
      (calls.countP fun call : Setting × ℕ => 3 ≤ call.2) + 1 := by
    rw [List.countP_append]
    rfl
  rw [hcount]
  unfold ownShare GivesBackOnce
  by_cases hsettles : s.line.settlesDocument
  · rw [if_pos hsettles, left_paid_iff hsettles hamount hs.credited.1 hle, List.countP_eq_zero]
    simp [hsettles]
  · rw [if_neg hsettles, sub_zero]
    have hfixed : leftPaid s.line s.document.paidPaise = s.document.paidPaise := by
      rw [leftPaid, if_neg hsettles, sub_zero]
    simp [hsettles, left_paid_fixed hfixed]

/-- After any calls that ended before the line was put back, a call of `undo` that answers leaves
the line undone just where the document gives back the line's share once and one of the calls
found the reversal's number free. -/
theorem undo_retried (hs : Posted s entry granted) (hamount : 0 < s.line.amount)
    (hle : granted ≤ s.line.amount) (hstops : ∀ call ∈ calls, call.2 ≤ 3)
    (hcalls : attempts ids calls s = .ok t) (hundo : undo ids now t = .ok u) :
    Undone s u entry granted ↔
      GivesBackOnce s granted calls ∧
        ∃ call ∈ calls ++ [(now, 3)], Frees s entry call := by
  obtain ⟨v, hv, rfl⟩ := undo_cases hundo
  have hprogress := (attempts_progress hs hstops hcalls).step hs le_rfl hv
  obtain ⟨status, hdocument⟩ := hprogress.document
  have hpaid : v.document.paidPaise =
      (leftPaid s.line)^[(calls ++ [(now, 3)]).countP fun call : Setting × ℕ => 3 ≤ call.2]
        s.document.paidPaise := by
    rw [hdocument]
  have hcredit : (∀ p, getBalance v p = getBalance s p - if p = s.party then granted else 0) ∧
      ∀ p, sourceNet v p = 0 := by
    rcases hprogress.credit with ⟨-, -, hbefore⟩ | hgone
    · have := hbefore (now, 3) (List.mem_append_right _ (List.mem_singleton_self _))
      omega
    · exact hgone
  have hgives := left_paid_calls hs hamount hle calls now
  constructor
  · intro h
    refine ⟨hgives.mp (hpaid.symm.trans h.document), ?_⟩
    rcases hprogress.entries with ⟨hsame, -⟩ | ⟨hfrees, -⟩
    · have hone : (v.entries.filter (·.reversalOf = some entry.id)).length = 1 := h.reversal
      rw [hsame, List.filter_eq_nil_iff.mpr fun e he => by simpa using hs.unreversed e he] at hone
      cases hone
    · exact hfrees
  · rintro ⟨hback, call, hcall, hfrees⟩
    refine ⟨?_, ?_, hcredit, hpaid.trans (hgives.mpr hback)⟩
    · rw [Store.putBack, hprogress.line]
    · rcases hprogress.entries with ⟨-, hnone⟩ | ⟨-, date, hreversed⟩
      · exact absurd hfrees (hnone call hcall)
      · change (v.entries.filter _).length = 1
        rw [hreversed]
        exact reversal_once hs ids date

end

theorem reference_ne (line : Line) (id : String) : reversalReference id ≠ line.reference := by
  intro h
  have hchars := congrArg String.toList h
  simp [reversalReference, Line.reference] at hchars

/-- Nothing refuses the line, and its bank and the control account are known. -/
def Setting.plain : Setting where
  today := "2026-05-31"
  closed := fun _ => none
  returnFiled := none
  foreign := none
  certified := none
  kernelRefusal := fun _ => none
  isSplit := false
  bankAccount := .ok "bank"
  counterAccount := .ok "debtors"
  otherPlan := fun _ => .error splitAndSettled

/-- A line that is matched to an invoice of 100000, of which some has been paid already. -/
def matchedLine (amount paid : ℤ) : Store where
  line := ⟨"line-1", "2026-04-10", 0, amount, some "Customer Payment", .salesInvoice, .matched, none⟩
  document := ⟨"customer-1", 100000, 0, 0, 0, paid, .partiallyPaid⟩
  balances := fun _ => none
  credits := []
  entries := []

theorem matched_unposted (ids : ℕ ↪ String) (amount : ℤ) (hpaid : 0 ≤ paid) :
    Unposted ids (matchedLine amount paid) where
  unposted := by simp [matchedLine]
  paidPos := hpaid
  numbered := by simp [matchedLine]
  linked := by simp [matchedLine]
  unlive := rfl
  free := by simp [matchedLine]
  granted := fun _ => rfl

/-- Nothing but the line's own entry is in the books, so its reversal's number is free. -/
theorem posted_free {s t : Store} (hnone : s.entries = []) (hp : PostedFrom ids s t entryType lines)
    (id date : String) : NumberFree t.entries id date := by
  intro e he hlive
  rw [hp.entries, hnone, List.nil_append, List.mem_singleton] at he
  subst he
  exact reference_ne s.line id hlive.1.symm

theorem answered_of_map {x : Except Failure α} {f : α → β} (h : x.toOption.map f = some b) :
    ∃ a, x = .ok a ∧ f a = b := by
  cases x with
  | ok a => exact ⟨a, rfl, Option.some.inj h⟩
  | error failure => cases h

/-- A call that stops after the reversal, and one that ends. -/
theorem stopped_and_retried :
    ∃ s t u entry, post drawing.ids .plain none (matchedLine 60000 40000) = .ok s ∧
      attempts drawing.ids [(.plain, 1)] s = .ok t ∧ undo drawing.ids .plain t = .ok u ∧
      Undone s u entry 0 := by
  have hruns : ((post drawing.ids .plain none (matchedLine 60000 40000) >>= fun s =>
      attempts drawing.ids [(.plain, 1)] s >>= fun t =>
        undo drawing.ids .plain t >>= fun u => .ok (s, t, u)).toOption.map
          fun r => (r.1.line.amount, r.1.line.settlesDocument)) = some (60000, true) := by
    decide +kernel
  obtain ⟨r, hr, hline⟩ := answered_of_map hruns
  obtain ⟨s, hs, hr⟩ := bind_answered hr
  obtain ⟨t, ht, hr⟩ := bind_answered hr
  obtain ⟨u, hu, hr⟩ := bind_answered hr
  cases hr
  obtain ⟨hamount, hsettles⟩ := Prod.mk.inj hline
  have hunposted : Unposted drawing.ids (matchedLine 60000 40000) :=
    matched_unposted drawing.ids 60000 (by decide)
  obtain ⟨entryType, lines, hp⟩ := posted_from hunposted (by decide) hs
  have hposted : Posted s _ 0 := hp.posted hunposted
  refine ⟨s, t, u, _, hs, ht, hu, (undo_retried hposted ?_ ?_ ?_ ht hu).mpr ⟨?_, ?_⟩⟩
  · rw [hamount]
    decide
  · rw [hamount]
    decide
  · simp
  · exact .inr (.inr ⟨rfl, by simp⟩)
  · exact ⟨_, List.mem_cons_self, le_rfl, fun date _ => posted_free rfl hp _ date⟩

/-- A call that stops once the invoice has been given back its amount: the next one gives it back
again, out of what another receipt had paid. -/
theorem given_back_twice :
    ∃ s t u entry, post drawing.ids .plain none (matchedLine 60000 40000) = .ok s ∧
      Posted s entry 0 ∧ attempts drawing.ids [(.plain, 3)] s = .ok t ∧
      undo drawing.ids .plain t = .ok u ∧ s.document.paidPaise = 100000 ∧
      u.document.paidPaise = 0 ∧ ¬ Undone s u entry 0 := by
  have hruns : ((post drawing.ids .plain none (matchedLine 60000 40000) >>= fun s =>
      attempts drawing.ids [(.plain, 3)] s >>= fun t =>
        undo drawing.ids .plain t >>= fun u => .ok (s, t, u)).toOption.map
          fun r => (r.1.document.paidPaise, r.2.2.document.paidPaise, ownShare r.1 0)) =
      some (100000, 0, 60000) := by
    decide +kernel
  obtain ⟨r, hr, hpaid⟩ := answered_of_map hruns
  obtain ⟨s, hs, hr⟩ := bind_answered hr
  obtain ⟨t, ht, hr⟩ := bind_answered hr
  obtain ⟨u, hu, hr⟩ := bind_answered hr
  cases hr
  obtain ⟨hbefore, hafter, hshare⟩ : s.document.paidPaise = 100000 ∧ u.document.paidPaise = 0 ∧
      ownShare s 0 = 60000 := by simpa using hpaid
  have hunposted : Unposted drawing.ids (matchedLine 60000 40000) :=
    matched_unposted drawing.ids 60000 (by decide)
  obtain ⟨entryType, lines, hp⟩ := posted_from hunposted (by decide) hs
  have hposted : Posted s _ 0 := hp.posted hunposted
  refine ⟨s, t, u, _, hs, hposted, ht, hu, hbefore, hafter, fun h => ?_⟩
  have hleft := h.document
  rw [hbefore, hafter, hshare] at hleft
  omega

end Caflow.Banking.Undo
