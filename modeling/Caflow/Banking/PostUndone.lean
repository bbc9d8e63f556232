import Caflow.Banking.UndoRetried

set_option linter.all false

namespace Caflow.Banking.Undo
open Accounting Kernel Kernel.Reversal Settlement Settlement.PartyCredit

/-- What the posted entries come to on an account. -/
def netPosted (entries : List Entry) (account : String) : ℤ :=
  ((entries.filter (·.isPosted)).map fun e => netOn account e.lines).sum

theorem net_posted_append (es fs : List Entry) (account : String) :
    netPosted (es ++ fs) account = netPosted es account + netPosted fs account := by
  rw [netPosted, List.filter_append, List.map_append, List.sum_append]
  rfl

theorem stamp_is_posted (r : Option String) (e : Entry) : (stamp r e).isPosted = e.isPosted := by
  unfold stamp
  split <;> rfl

/-- A stamp only marks an entry as reversed. -/
theorem of_stamp_unreversed {r : Option String} {e : Entry} (h : (stamp r e).isReversed = false) :
    stamp r e = e ∧ r ≠ some e.id := by
  unfold stamp at h ⊢
  split
  · rename_i hr
    rw [if_pos hr] at h
    cases h
  · rename_i hr
    exact ⟨rfl, hr⟩

@[simp] theorem net_posted_stamp (r : Option String) (es : List Entry) (account : String) :
    netPosted (es.map (stamp r)) account = netPosted es account := by
  have hposted : (fun e : Entry => e.isPosted) ∘ stamp r = fun e => e.isPosted :=
    funext fun e => stamp_is_posted r e
  have hlines : (fun e : Entry => netOn account e.lines) ∘ stamp r =
      fun e => netOn account e.lines :=
    funext fun e => congrArg (netOn account) (stamp_lines r e)
  rw [netPosted, List.filter_map, hposted, List.map_map, hlines, netPosted]

section
variable {ids : ℕ ↪ String} {s t u : Store} {entryType : String} {lines : List JournalLine}

/-- The document is as it was but for its status, the credit of every party is, and so is every
account. -/
structure Restored (s t : Store) : Prop where
  line : t.line = { s.line with
    matchStatus := t.line.matchStatus, postedJournalId := t.line.postedJournalId }
  document : t.document = { s.document with status := t.document.status }
  balance : ∀ p, getBalance t p = getBalance s p
  net : ∀ account, netPosted t.entries account = netPosted s.entries account

theorem Restored.refl (s : Store) : Restored s s := ⟨rfl, rfl, fun _ => rfl, fun _ => rfl⟩

theorem Restored.trans (h : Restored s t) (h' : Restored t u) : Restored s u where
  line := by
    rw [h'.line, h.line]
  document := by
    rw [h'.document, h.document]
  balance := fun p => (h'.balance p).trans (h.balance p)
  net := fun account => (h'.net account).trans (h.net account)

/-- The line is posted once: its amount went to the document, as far as that was owed, and to the
party's credit, and one entry of it stands, between its bank and the control account. -/
structure PostedOnce (s t : Store) : Prop where
  raised : (t.document.paidPaise - s.document.paidPaise) +
    (getBalance t s.party - getBalance s s.party) = s.line.amount
  within : t.document.paidPaise - s.document.paidPaise ≤ outstanding s.document s.line.matchedType
  live : ∃ entry bank counter, liveOf t = [entry] ∧ bank ≠ counter ∧ entry.lines =
    if s.line.isCredit then [⟨bank, s.line.amount, 0⟩, ⟨counter, 0, s.line.amount⟩]
    else [⟨counter, s.line.amount, 0⟩, ⟨bank, 0, s.line.amount⟩]

theorem PostedFrom.once (h : Unposted ids s) (hp : PostedFrom ids s t entryType lines) :
    PostedOnce s t where
  raised := by
    obtain ⟨status, hdocument⟩ := hp.settled.document
    have hbalance : getBalance t s.party =
        getBalance s s.party + if s.party = s.party then s.line.amount - allocated s else 0 :=
      hp.settled.balance s.party
    have hpaid : t.document.paidPaise = s.document.paidPaise + allocated s := by
      rw [hdocument]
      rfl
    rw [hbalance, hpaid, if_pos rfl]
    omega
  within := by
    obtain ⟨status, hdocument⟩ := hp.settled.document
    have hpaid : t.document.paidPaise = s.document.paidPaise + allocated s := by
      rw [hdocument]
      rfl
    rw [hpaid, add_sub_cancel_left]
    exact min_le_right _ _
  live := by
    obtain ⟨bank, counter, hbuilt⟩ := hp.built
    obtain ⟨hne, hlines⟩ := build_lines_cases hbuilt
    refine ⟨entryOf ids s entryType lines, bank, counter, ?_, hne, hlines⟩
    have hid : t.line.id = s.line.id := by
      rw [hp.settled.line]
      rfl
    have hnone : s.entries.filter (fun e => e.sourceType = some "bank_transaction" ∧
        e.sourceId = some s.line.id ∧ e.isReversed = false ∧ e.reversalOf = none) = [] := h.unlive
    rw [liveOf, hp.entries, hid, List.filter_append, hnone, List.nil_append,
      List.filter_cons_of_pos (by simp [entryOf, Posting.entry, Line.posting]), List.filter_nil]

/-- As much is given back as was allocated just where the line fits what is owed or nothing had
been paid. -/
theorem left_paid_allocated (hsettles : s.line.settlesDocument) (hamount : 0 < s.line.amount)
    (hpaid : 0 ≤ s.document.paidPaise) :
    leftPaid s.line (s.document.paidPaise + allocated s) = s.document.paidPaise ↔
      s.line.amount ≤ outstanding s.document s.line.matchedType ∨ s.document.paidPaise = 0 := by
  have howed := outstanding_nonneg s.document s.line.matchedType
  rw [left_paid_settling hsettles]
  unfold allocated
  omega

/-- The reversal nets its entry. -/
theorem reversed_net (hshort : entry.lines.length ≤ rowCap) (hposted : entry.isPosted = true)
    (ids : ℕ ↪ String) (date : String) (entries : List Entry) (account : String) :
    netPosted (withReversal ids entry date (entries ++ [entry])) account =
      netPosted entries account := by
  have hswap := net_on_swap account entry.lines
  have hentry : netPosted [entry] account = netOn account entry.lines := by
    simp [netPosted, hposted]
  have hreversal : netPosted [(reversalPosting entry date).entry
      (ids (entries ++ [entry]).length) (some entry.id)] account =
      netOn account (entry.lines.map swap) := by
    simp [netPosted, Posting.entry, reversalPosting, unpaged_whole hshort]
  rw [withReversal, net_posted_stamp, net_posted_append, net_posted_append, hentry, hreversal]
  omega

theorem numbered_concat {es : List Entry} {e : Entry}
    (h : ∀ i, (hi : i < es.length) → es[i].id = ids i) (he : e.id = ids es.length) (i : ℕ)
    (hi : i < (es ++ [e]).length) : (es ++ [e])[i].id = ids i := by
  rw [List.length_append, List.length_singleton] at hi
  rcases Nat.lt_succ_iff_lt_or_eq.mp hi with hlt | rfl
  · rw [List.getElem_append_left hlt]
    exact h i hlt
  · rw [List.getElem_concat_length rfl]
    exact he

/-- What is in the books after a reversal, by what it was before. -/
theorem mem_with_reversal (he : e ∈ withReversal ids entry date (entries ++ [entry])) :
    ∃ e₀, e = stamp (some entry.id) e₀ ∧ (e₀ ∈ entries ∨ e₀ = entry ∨
      e₀ = (reversalPosting entry date).entry (ids (entries ++ [entry]).length) (some entry.id)) := by
  obtain ⟨e₀, he₀, rfl⟩ := List.mem_map.mp he
  exact ⟨e₀, rfl, by simpa [or_assoc] using he₀⟩

/-- Books whose entry of the line was reversed are books in which the line is not posted. -/
theorem reversed_unposted (h : Unposted ids s) {entry : Entry} (hid : entry.id = ids s.entries.length)
    (hown : entry.reversalOf = none)
    (hu : u.entries = withReversal ids entry date (s.entries ++ [entry]))
    (hline : u.line.id = s.line.id ∧ u.line.transactionDate = s.line.transactionDate)
    (hstatus : u.line.matchStatus ≠ .posted) (hpaid : 0 ≤ u.document.paidPaise)
    (hgranted : ∀ p, sourceNet u p = 0) : Unposted ids u where
  unposted := hstatus
  paidPos := hpaid
  granted := hgranted
  numbered := by
    rw [hu]
    intro i hi
    simp only [withReversal, List.getElem_map, stamp_id]
    exact numbered_concat (numbered_concat h.numbered hid) rfl i _
  linked := by
    rw [hu]
    have hkept : ∀ e ∈ s.entries ++ [entry], stamp (some entry.id) e ∈
        withReversal ids entry date (s.entries ++ [entry]) :=
      fun e he => List.mem_map_of_mem (List.mem_append_left _ he)
    intro e he id hreversal
    obtain ⟨e₀, rfl, hold | rfl | rfl⟩ := mem_with_reversal he
    · rw [stamp_reversal_of] at hreversal
      obtain ⟨original, horiginal, hsame⟩ := h.linked e₀ hold id hreversal
      exact ⟨_, hkept original (List.mem_append_left _ horiginal), by rw [stamp_id, hsame]⟩
    · rw [stamp_reversal_of, hown] at hreversal
      cases hreversal
    · rw [stamp_reversal_of] at hreversal
      refine ⟨_, hkept entry (List.mem_append_right _ (List.mem_singleton_self _)), ?_⟩
      rw [stamp_id]
      exact Option.some.inj hreversal
  unlive := by
    rw [liveOf, hu, hline.1]
    refine List.filter_eq_nil_iff.mpr fun e he hlive => ?_
    obtain ⟨hsource, hline', hunreversed, hreversal⟩ := of_decide_eq_true hlive
    obtain ⟨e₀, rfl, hcases⟩ := mem_with_reversal he
    obtain ⟨hsame, hne⟩ := of_stamp_unreversed hunreversed
    rw [hsame] at hsource hline' hunreversed hreversal
    rcases hcases with hold | rfl | rfl
    · have hmem : e₀ ∈ liveOf s :=
        List.mem_filter.mpr ⟨hold, decide_eq_true ⟨hsource, hline', hunreversed, hreversal⟩⟩
      rw [h.unlive] at hmem
      cases hmem
    · exact hne rfl
    · cases hreversal
  free := by
    rw [hu, Line.reference, hline.1, hline.2]
    intro e he hlive
    obtain ⟨e₀, rfl, hcases⟩ := mem_with_reversal he
    obtain ⟨hsame, hne⟩ := of_stamp_unreversed hlive.2.2
    rw [hsame] at hlive
    rcases hcases with hold | rfl | rfl
    · exact h.free e₀ hold hlive
    · exact hne rfl
    · exact reference_ne s.line entry.id hlive.1

/-- A line that settles its document, and either is no more than is owed or is the first to be
paid. -/
def Fits (s : Store) : Prop :=
  s.line.settlesDocument ∧
    (s.line.amount ≤ outstanding s.document s.line.matchedType ∨ s.document.paidPaise = 0)

/-- Undoing what a post made restores the books, where the reversal's number is free. -/
theorem post_undone (h : Unposted ids s) (hfits : Fits s)
    (hp : PostedFrom ids s t entryType lines)
    (hfree : ∀ id date, undoChecks now t = .ok (id, date) → NumberFree t.entries id date)
    (hundo : undo ids now t = .ok u) : Unposted ids u ∧ Restored s u := by
  set entry := entryOf ids s entryType lines with hentry
  have hposted : Posted t entry (s.line.amount - allocated s) := hp.posted h
  obtain ⟨v, hv, rfl⟩ := undo_cases hundo
  have hstart := Progress.start ids t entry (s.line.amount - allocated s)
  have hprogress := hstart.step hposted le_rfl hv
  obtain ⟨checked, hchecked, -⟩ := bind_answered hv
  obtain ⟨hid, hdate⟩ := checked_entry hposted hstart hchecked
  have hfrees : Frees t entry (now, 3) := by
    refine ⟨Nat.le_add_left 1 2, fun date hdate' => ?_⟩
    have hsame : checked.2 = date := Except.ok.inj (hdate.symm.trans hdate')
    rw [← hid, ← hsame]
    exact hfree checked.1 checked.2 hchecked
  obtain ⟨date, hreversed⟩ : ∃ date, v.entries = withReversal ids entry date t.entries := by
    rcases hprogress.entries with ⟨-, hnone⟩ | ⟨-, hreversed⟩
    · exact absurd hfrees (hnone (now, 3) List.mem_cons_self)
    · exact hreversed
  rw [hp.entries] at hreversed
  have hline : v.line = (s.claimed entry).line := hprogress.line.trans hp.settled.line
  obtain ⟨status, hdocument⟩ := hprogress.document
  obtain ⟨status', hdocument'⟩ := hp.settled.document
  have hpaid : v.document = { s.document with status := status } := by
    have hgiven : leftPaid s.line (s.document.paidPaise + allocated s) = s.document.paidPaise :=
      (left_paid_allocated hfits.1 hp.amount h.paidPos).mpr hfits.2
    rw [hdocument, hdocument', hp.settled.line]
    change ({ s.document with
      paidPaise := leftPaid s.line (s.document.paidPaise + allocated s), status := status } : Target) = _
    rw [hgiven]
  have hcredit : (∀ p, getBalance v p = getBalance t p -
      if p = t.party then s.line.amount - allocated s else 0) ∧ ∀ p, sourceNet v p = 0 := by
    rcases hprogress.credit with ⟨-, -, hbefore⟩ | hgone
    · have := hbefore (now, 3) List.mem_cons_self
      omega
    · exact hgone
  constructor
  · refine reversed_unposted h rfl rfl hreversed ?_ ?_ ?_ hcredit.2
    · change v.line.id = _ ∧ v.line.transactionDate = _
      rw [hline]
      exact ⟨rfl, rfl⟩
    · exact fun hmatched => by cases hmatched
    · change 0 ≤ v.document.paidPaise
      rw [hpaid]
      exact h.paidPos
  · refine ⟨?_, ?_, fun p => ?_, fun account => ?_⟩
    · rw [Store.putBack, hline]
      rfl
    · change v.document = { s.document with status := v.document.status }
      rw [hpaid]
    · change getBalance v p = _
      have hraised : getBalance t p =
          getBalance s p + if p = s.party then s.line.amount - allocated s else 0 :=
        hp.settled.balance p
      rw [hcredit.1 p, hraised, hp.party, add_sub_cancel_right]
    · change netPosted v.entries account = _
      obtain ⟨bank, counter, hbuilt⟩ := hp.built
      rw [hreversed]
      refine reversed_net ?_ rfl ids date s.entries account
      have htwo : entry.lines.length = 2 := by
        rw [show entry.lines = _ from (build_lines_cases hbuilt).2]
        split <;> rfl
      rw [htwo]
      decide

/-- A step that meets what undoing it asks: a line is posted where it fits its document, and
undone where its reversal's number is free. -/
def Meets (s : Store) : Call → Prop
  | .post _ _ => Fits s
  | .undo now => ∀ id date, undoChecks now s = .ok (id, date) → NumberFree s.entries id date

def MeetsRun (ids : ℕ ↪ String) : List Call → Store → Prop
  | [], _ => True
  | call :: calls, s => Meets s call ∧ ∀ t, step ids s call = .ok t → MeetsRun ids calls t

/-- Where a run on a line stands: the books are restored, or one post was made of such books. -/
def Stands (ids : ℕ ↪ String) (s t : Store) : Prop :=
  (Unposted ids t ∧ Restored s t) ∨ ∃ r entryType lines,
    (Unposted ids r ∧ Restored s r) ∧ Fits r ∧ PostedFrom ids r t entryType lines

theorem step_stands (h : Stands ids s t) (hmeets : Meets t call) (hstep : step ids t call = .ok u) :
    Stands ids s u := by
  cases call with
  | post now gstRate =>
    rcases h with ⟨hunposted, hrestored⟩ | ⟨r, entryType, lines, -, -, hp⟩
    · obtain ⟨entryType, lines, hp⟩ := posted_from hunposted hmeets.1 hstep
      exact .inr ⟨t, entryType, lines, ⟨hunposted, hrestored⟩, hmeets, hp⟩
    · refine absurd ?_ (post_cases hstep).1
      rw [hp.settled.line]
      rfl
  | undo now =>
    rcases h with ⟨hunposted, -⟩ | ⟨r, entryType, lines, ⟨hunposted, hrestored⟩, hfits, hp⟩
    · obtain ⟨checked, hchecked, -⟩ := bind_answered hstep
      exact absurd (undo_checks_cases hchecked).2.1 hunposted.unposted
    · obtain ⟨hagain, hback⟩ := post_undone hunposted hfits hp hmeets hstep
      exact .inl ⟨hagain, hrestored.trans hback⟩

theorem run_stands (h : Stands ids s t) (hmeets : MeetsRun ids calls t)
    (hrun : run ids calls t = .ok u) : Stands ids s u := by
  induction calls generalizing t with
  | nil =>
    cases hrun
    exact h
  | cons call calls ih =>
    obtain ⟨a, ha, hrest⟩ := bind_answered hrun
    exact ih (step_stands h hmeets.1 ha) (hmeets.2 a ha) hrest

theorem PostedOnce.of_restored (h : Restored s t) (hp : PostedOnce t u) : PostedOnce s u := by
  have hpaid : t.document.paidPaise = s.document.paidPaise := by rw [h.document]
  have hamount : t.line.amount = s.line.amount := by
    rw [h.line]
    rfl
  have hparty : t.party = s.party := by
    unfold Store.party
    rw [h.line, h.document]
  have howed : outstanding t.document t.line.matchedType =
      outstanding s.document s.line.matchedType := by
    rw [h.line, h.document]
    cases s.line.matchedType <;> rfl
  have hcredit : t.line.isCredit = s.line.isCredit := by
    rw [h.line]
    rfl
  refine ⟨?_, ?_, ?_⟩
  · have hraised := hp.raised
    rwa [hpaid, hamount, hparty, h.balance] at hraised
  · have hwithin := hp.within
    rwa [hpaid, howed] at hwithin
  · have hlive := hp.live
    rwa [hamount, hcredit] at hlive

/-- Over any run of posts and undos on a line that fits its document, while the line is posted it
is posted once, and after every undo the books are what they were before the post. -/
theorem run_posts_and_undoes (ids : ℕ ↪ String) (calls : List Call) (h : Unposted ids s)
    (hmeets : MeetsRun ids calls s) (hrun : run ids calls s = .ok t) :
    if t.line.matchStatus = .posted then PostedOnce s t else Restored s t := by
  rcases run_stands (.inl ⟨h, .refl s⟩) hmeets hrun with
    ⟨hunposted, hrestored⟩ | ⟨r, entryType, lines, ⟨hunposted, hrestored⟩, -, hp⟩
  · rw [if_neg hunposted.unposted]
    exact hrestored
  · have hposted : t.line.matchStatus = .posted := by
      rw [hp.settled.line]
      rfl
    rw [if_pos hposted]
    exact (hp.once hunposted).of_restored hrestored

end

/-- A line that is no more than its invoice still owes is posted and undone. -/
theorem posted_then_undone :
    ∃ t, run drawing.ids [.post .plain none, .undo .plain] (matchedLine 60000 40000) = .ok t ∧
      if t.line.matchStatus = .posted then PostedOnce (matchedLine 60000 40000) t
      else Restored (matchedLine 60000 40000) t := by
  have hruns : ((run drawing.ids [.post .plain none, .undo .plain]
      (matchedLine 60000 40000)).toOption.map fun _ => ()) = some () := by
    decide +kernel
  obtain ⟨t, ht, -⟩ := answered_of_map hruns
  have hunposted : Unposted drawing.ids (matchedLine 60000 40000) :=
    matched_unposted drawing.ids 60000 (by decide)
  have hmeets : MeetsRun drawing.ids [.post .plain none, .undo .plain] (matchedLine 60000 40000) := by
    refine ⟨⟨by decide, by decide⟩, fun s hs => ?_⟩
    obtain ⟨entryType, lines, hp⟩ := posted_from hunposted (by decide) hs
    exact ⟨fun id date _ => posted_free rfl hp id date, fun _ _ => trivial⟩
  exact ⟨t, ht, run_posts_and_undoes drawing.ids _ hunposted hmeets ht⟩

/-- A line of more than its part-paid invoice still owes: posted and undone, it takes with it what
had been paid before. -/
theorem overpaid_not_restored :
    Unposted drawing.ids (matchedLine 100000 60000) ∧
    ∃ t, run drawing.ids [.post .plain none, .undo .plain] (matchedLine 100000 60000) = .ok t ∧
      t.line.matchStatus = .matched ∧ t.document.paidPaise = 0 ∧
      ¬ Restored (matchedLine 100000 60000) t := by
  have hruns : ((run drawing.ids [.post .plain none, .undo .plain]
      (matchedLine 100000 60000)).toOption.map fun t => (t.line.matchStatus, t.document.paidPaise)) =
      some (.matched, 0) := by
    decide +kernel
  obtain ⟨t, ht, hleft⟩ := answered_of_map hruns
  obtain ⟨hstatus, hpaid⟩ := Prod.mk.inj hleft
  refine ⟨matched_unposted drawing.ids 100000 (by decide), t, ht, hstatus, hpaid, fun h => ?_⟩
  have hsame := congrArg Target.paidPaise h.document
  rw [hpaid] at hsame
  cases hsame

end Caflow.Banking.Undo
