import Caflow.Mail.Outbox

namespace Caflow.Mail
open Interleaving

/-- What is true of the store between any two statements. -/
structure Outbox.Kept (o : Outbox) : Prop where
  ids : (o.rows.map (·.id)).Nodup
  known : ∀ r ∈ o.rows, o.created[r.id]? = some r.maxAttempts
  leased : ∀ r ∈ o.rows, r.status = .sending → r.leaseExpiresAt.isSome
  blank : ∀ r ∈ o.rows, r.status.terminal → r.subject = "" ∧ r.html = ""
  ended : ∀ r ∈ o.rows, r.status.terminal → (r.id, r.status) ∈ o.ends
  going : ∀ r ∈ o.rows, r.status.terminal = false → ∀ e ∈ o.ends, e.1 ≠ r.id
  once : (o.ends.map Prod.fst).Nodup
  endsKnown : ∀ e ∈ o.ends, e.1 < o.created.length
  falling : o.claims.Pairwise fun c d => c.id = d.id → d.attempts < c.attempts
  claimsKnown : ∀ c ∈ o.claims, 1 ≤ c.attempts ∧ c.id < o.created.length
  current : ∀ c ∈ o.claims, ∀ r ∈ o.rows, r.id = c.id → c.attempts ≤ r.attempts
  callsOnce : o.calls.Nodup
  called : ∀ c ∈ o.calls, (∃ d, ⟨c.1, c.2, d⟩ ∈ o.claims) ∧ ∃ n, o.created[c.1]? = some n ∧ c.2 ≤ n
  turned : ∀ id ∈ o.flipped, ∃ status, status ≠ .sent ∧ (id, status) ∈ o.ends

def OutboxRow.key (r : OutboxRow) : ℕ × ℕ := (r.id, r.attempts)

/-- The messages a drainer has in hand. -/
def Phase.copies : Phase → List OutboxRow
  | .idle queue => queue
  | .gating row queue | .transporting row queue | .marking row _ queue | .logging row queue =>
    row :: queue

/-- The ones it may still send. -/
def Phase.unsent : Phase → List OutboxRow
  | .idle queue | .marking _ _ queue | .logging _ queue => queue
  | .gating row queue | .transporting row queue => row :: queue

/-- A mark that gives a message up does not say it was sent. -/
def Mark.Fair : Mark → Prop
  | .final status _ _ _ => status.terminal ∧ status ≠ .sent
  | _ => True

def Phase.Within (o : Outbox) : Phase → Prop
  | .idle _ => True
  | .gating row _ | .transporting row _ => row.attempts ≤ row.maxAttempts
  | .marking _ m _ => m.Fair
  | .logging row _ => ∃ status, status ≠ .sent ∧ (row.id, status) ∈ o.ends

/-- Where a drainer stands, against the store. -/
structure Standing (drainer : ℕ) (o : Outbox) (p : Phase) : Prop where
  claimed : ∀ r ∈ p.copies, ⟨r.id, r.attempts, drainer⟩ ∈ o.claims
  sized : ∀ r ∈ p.copies, o.created[r.id]? = some r.maxAttempts
  apart : (p.unsent.map OutboxRow.key).Nodup
  fresh : ∀ r ∈ p.unsent, r.key ∉ o.calls
  within : p.Within o

/-- What the store only ever adds to. -/
structure Outbox.Grows (o o' : Outbox) : Prop where
  created : o.created <+: o'.created
  claims : o.claims ⊆ o'.claims
  ends : o.ends ⊆ o'.ends

theorem Outbox.Grows.refl (o : Outbox) : o.Grows o := ⟨List.prefix_rfl, fun _ h => h, fun _ h => h⟩

theorem Outbox.Grows.trans {o o' o'' : Outbox} (h : o.Grows o') (h' : o'.Grows o'') : o.Grows o'' :=
  ⟨h.created.trans h'.created, fun _ hc => h'.claims (h.claims hc), fun _ he => h'.ends (h.ends he)⟩

theorem Outbox.Grows.size {o o' : Outbox} (h : o.Grows o') {id n : ℕ}
    (hn : o.created[id]? = some n) : o'.created[id]? = some n := by
  obtain ⟨more, hmore⟩ := h.created
  rw [← hmore, List.getElem?_append_left (List.getElem?_eq_some_iff.mp hn).1]
  exact hn

theorem Phase.Within.grow {o o' : Outbox} {p : Phase} (h : p.Within o) (hgrows : o.Grows o') :
    p.Within o' := by
  cases p with
  | logging row queue =>
    obtain ⟨status, hnot, hmem⟩ := h
    exact ⟨status, hnot, hgrows.ends hmem⟩
  | _ => exact h

theorem Standing.grow {drainer : ℕ} {o o' : Outbox} {p : Phase} (h : Standing drainer o p)
    (hgrows : o.Grows o') (hcalls : ∀ r ∈ p.unsent, r.key ∉ o'.calls) : Standing drainer o' p :=
  ⟨fun r hr => hgrows.claims (h.claimed r hr), fun r hr => hgrows.size (h.sized r hr), h.apart,
    hcalls, h.within.grow hgrows⟩

theorem Standing.idle (drainer : ℕ) (o : Outbox) : Standing drainer o (.idle []) :=
  ⟨fun _ hr => absurd hr List.not_mem_nil, fun _ hr => absurd hr List.not_mem_nil, List.nodup_nil,
    fun _ hr => absurd hr List.not_mem_nil, trivial⟩

/-! ### What each write of the store keeps -/

theorem Outbox.Kept.clock {o : Outbox} (h : o.Kept) (now : ℤ) : Outbox.Kept { o with clock := now } :=
  { h with }

/-- Rows rewritten in place, with the ends some of them come to. -/
theorem Outbox.Kept.rewrite {o : Outbox} (h : o.Kept) (f : OutboxRow → OutboxRow)
    {ends : List (ℕ × Status)} (hid : ∀ r, (f r).id = r.id)
    (hmax : ∀ r, (f r).maxAttempts = r.maxAttempts) (hattempts : ∀ r, (f r).attempts = r.attempts)
    (hleased : ∀ r ∈ o.rows, (f r).status = .sending → (f r).leaseExpiresAt.isSome)
    (hblank : ∀ r ∈ o.rows, (f r).status.terminal → (f r).subject = "" ∧ (f r).html = "")
    (hended : ∀ r ∈ o.rows, (f r).status.terminal → (r.id, (f r).status) ∈ ends)
    (hgoing : ∀ r ∈ o.rows, (f r).status.terminal = false → ∀ e ∈ ends, e.1 ≠ r.id)
    (honce : (ends.map Prod.fst).Nodup) (hknown : ∀ e ∈ ends, e.1 < o.created.length)
    (hmore : o.ends ⊆ ends) :
    Outbox.Kept { o with rows := o.rows.map f, ends := ends } := by
  have hback : ∀ {P : OutboxRow → Prop}, (∀ r ∈ o.rows, P (f r)) → ∀ r ∈ o.rows.map f, P r := by
    intro P hP r hr
    obtain ⟨r, hmem, rfl⟩ := List.mem_map.mp hr
    exact hP r hmem
  refine { h with
    ids := ?_
    known := hback fun r hr => ?_
    leased := hback hleased
    blank := hback hblank
    ended := hback fun r hr hterminal => ?_
    going := hback fun r hr hopen => ?_
    once := honce
    endsKnown := hknown
    current := fun c hc => hback fun r hr hsame => ?_
    turned := fun id hflipped => ?_ }
  · rw [List.map_map]
    have hids : (fun r : OutboxRow => r.id) ∘ f = fun r => r.id := funext hid
    rw [hids]
    exact h.ids
  · rw [hid, hmax]
    exact h.known r hr
  · rw [hid]
    exact hended r hr hterminal
  · rw [hid]
    exact hgoing r hr hopen
  · rw [hattempts]
    apply h.current c hc r hr
    rw [← hid r]
    exact hsame
  · obtain ⟨status, hnot, hmem⟩ := h.turned id hflipped
    exact ⟨status, hnot, hmore hmem⟩

theorem Outbox.Kept.set_delivery_event {o : Outbox} (h : o.Kept) (messageId event : String) :
    (o.setDeliveryEvent messageId event).Kept := by
  have hsame : ∀ r : OutboxRow, ∀ f : OutboxRow → OutboxRow,
      (f = fun r => if r.providerMessageId = some messageId then
        { r with deliveryEvent := some event, deliveryEventAt := some o.clock } else r) →
      (f r).id = r.id ∧ (f r).maxAttempts = r.maxAttempts ∧ (f r).attempts = r.attempts ∧
        (f r).status = r.status ∧ (f r).leaseExpiresAt = r.leaseExpiresAt ∧
        (f r).subject = r.subject ∧ (f r).html = r.html := by
    rintro r f rfl
    dsimp only
    split
    · exact ⟨rfl, rfl, rfl, rfl, rfl, rfl, rfl⟩
    · exact ⟨rfl, rfl, rfl, rfl, rfl, rfl, rfl⟩
  apply h.rewrite
  · intro r
    exact (hsame r _ rfl).1
  · intro r
    exact (hsame r _ rfl).2.1
  · intro r
    exact (hsame r _ rfl).2.2.1
  · intro r hr hsending
    obtain ⟨-, -, -, hstatus, hlease, -, -⟩ := hsame r _ rfl
    rw [hlease]
    exact h.leased r hr (hstatus ▸ hsending)
  · intro r hr hterminal
    obtain ⟨-, -, -, hstatus, -, hsubject, hhtml⟩ := hsame r _ rfl
    rw [hsubject, hhtml]
    exact h.blank r hr (hstatus ▸ hterminal)
  · intro r hr hterminal
    obtain ⟨-, -, -, hstatus, -, -, -⟩ := hsame r _ rfl
    rw [hstatus]
    exact h.ended r hr (hstatus ▸ hterminal)
  · intro r hr hopen
    obtain ⟨-, -, -, hstatus, -, -, -⟩ := hsame r _ rfl
    exact h.going r hr (hstatus ▸ hopen)
  · exact h.once
  · exact h.endsKnown
  · exact fun _ he => he

theorem Outbox.Kept.prune {o : Outbox} (h : o.Kept) (olderThanSeconds : ℤ) :
    (o.prune olderThanSeconds).Kept := by
  have hsub : ∀ r ∈ (o.prune olderThanSeconds).rows, r ∈ o.rows := fun r hr => List.mem_of_mem_filter hr
  exact { h with
    ids := (List.filter_sublist.map _).nodup h.ids
    known := fun r hr => h.known r (hsub r hr)
    leased := fun r hr => h.leased r (hsub r hr)
    blank := fun r hr => h.blank r (hsub r hr)
    ended := fun r hr => h.ended r (hsub r hr)
    going := fun r hr => h.going r (hsub r hr)
    current := fun c hc r hr => h.current c hc r (hsub r hr) }

theorem Outbox.Kept.row_lt {o : Outbox} (h : o.Kept) {r : OutboxRow} (hr : r ∈ o.rows) :
    r.id < o.created.length := (List.getElem?_eq_some_iff.mp (h.known r hr)).1

theorem Outbox.grows_insert (o : Outbox) (m : QueuedMail) : o.Grows (o.insert m) :=
  ⟨List.prefix_append _ _, fun _ h => h, fun _ h => h⟩

theorem Outbox.Kept.insert {o : Outbox} (h : o.Kept) (m : QueuedMail) : (o.insert m).Kept := by
  have hlonger : (o.insert m).created.length = o.created.length + 1 := by simp [Outbox.insert]
  have hsplit : ∀ r ∈ (o.insert m).rows, r ∈ o.rows ∨
      r.id = o.created.length ∧ r.status = .pending ∧ r.maxAttempts = m.maxAttempts := by
    intro r hr
    rcases List.mem_append.mp hr with hold | hnew
    · exact Or.inl hold
    · rw [List.mem_singleton.mp hnew]
      exact Or.inr ⟨rfl, rfl, rfl⟩
  refine { h with
    ids := ?_
    known := fun r hr => ?_
    leased := fun r hr hsending => ?_
    blank := fun r hr hterminal => ?_
    ended := fun r hr hterminal => ?_
    going := fun r hr hopen e he => ?_
    endsKnown := fun e he => ?_
    claimsKnown := fun c hc => ⟨(h.claimsKnown c hc).1, ?_⟩
    current := fun c hc r hr hid => ?_
    called := fun c hc => ?_ }
  · simp only [Outbox.insert, List.map_append, List.map_cons, List.map_nil]
    rw [List.nodup_append]
    refine ⟨h.ids, List.nodup_singleton _, ?_⟩
    intro a ha b hb heq
    obtain ⟨r, hr, rfl⟩ := List.mem_map.mp ha
    have hlt := h.row_lt hr
    rw [List.mem_singleton] at hb
    omega
  · rcases hsplit r hr with hold | ⟨hid, -, hmax⟩
    · exact (o.grows_insert m).size (h.known r hold)
    · rw [hid, hmax]
      simp [Outbox.insert]
  · rcases hsplit r hr with hold | ⟨-, hpending, -⟩
    · exact h.leased r hold hsending
    · rw [hpending] at hsending
      cases hsending
  · rcases hsplit r hr with hold | ⟨-, hpending, -⟩
    · exact h.blank r hold hterminal
    · rw [hpending] at hterminal
      cases hterminal
  · rcases hsplit r hr with hold | ⟨-, hpending, -⟩
    · exact h.ended r hold hterminal
    · rw [hpending] at hterminal
      cases hterminal
  · rcases hsplit r hr with hold | ⟨hid, -, -⟩
    · exact h.going r hold hopen e he
    · have hlt := h.endsKnown e he
      omega
  · have hlt := h.endsKnown e he
    omega
  · have hlt := (h.claimsKnown c hc).2
    omega
  · rcases hsplit r hr with hold | ⟨hnew, -, -⟩
    · exact h.current c hc r hold hid
    · have hlt := (h.claimsKnown c hc).2
      omega
  · obtain ⟨hclaim, n, hn, hle⟩ := h.called c hc
    exact ⟨hclaim, n, (o.grows_insert m).size hn, hle⟩

/-! ### Claims -/

theorem Outbox.row_eq {o : Outbox} (h : o.Kept) {r r' : OutboxRow} (hr : r ∈ o.rows)
    (hr' : r' ∈ o.rows) (hid : r.id = r'.id) : r = r' :=
  List.inj_on_of_nodup_map h.ids hr hr' hid

theorem OutboxRow.due_open {now : ℤ} {r : OutboxRow} (h : r.due now = true) :
    r.status.terminal = false := by
  unfold OutboxRow.due at h
  cases hstatus : r.status with
  | pending => rfl
  | sending => rfl
  | sent | failed | cancelled | suppressed => simp [hstatus] at h

theorem Outbox.taken_due {o : Outbox} {limit : ℕ} {r : OutboxRow} (hr : r ∈ o.taken limit) :
    r ∈ o.rows ∧ r.due o.clock = true := by
  have hsorted := List.mem_of_mem_take hr
  rw [List.mem_insertionSort] at hsorted
  exact List.mem_filter.mp hsorted

theorem Outbox.Kept.taken_ids {o : Outbox} (h : o.Kept) (limit : ℕ) :
    ((o.taken limit).map (·.id)).Nodup := by
  have hdue : ((o.rows.filter (·.due o.clock)).map (·.id)).Nodup :=
    (List.filter_sublist.map _).nodup h.ids
  have hsorted := ((List.perm_insertionSort (fun a b : OutboxRow => a.nextAttemptAt ≤ b.nextAttemptAt)
    (o.rows.filter (·.due o.clock))).map (·.id)).nodup_iff.mpr hdue
  exact ((List.take_sublist limit _).map _).nodup hsorted

theorem Outbox.grows_claim_due (o : Outbox) (limit : ℕ) (leaseSeconds : ℤ) (drainer : ℕ) :
    o.Grows (o.claimDue limit leaseSeconds drainer).1 := by
  unfold Outbox.claimDue
  split
  · exact ⟨List.prefix_rfl, fun _ hc => List.mem_append_right _ hc, fun _ he => he⟩
  · exact Outbox.Grows.refl o

theorem Outbox.Kept.claim_due {o : Outbox} (h : o.Kept) (limit : ℕ) (leaseSeconds : ℤ)
    (drainer : ℕ) : (o.claimDue limit leaseSeconds drainer).1.Kept := by
  unfold Outbox.claimDue
  split
  swap
  · exact h
  have hback : ∀ {P : OutboxRow → Prop}, (∀ r ∈ o.rows, r ∈ o.taken limit →
      P (r.claimed o.clock leaseSeconds)) → (∀ r ∈ o.rows, r ∉ o.taken limit → P r) →
      ∀ r ∈ o.rows.map fun r => if r ∈ o.taken limit then r.claimed o.clock leaseSeconds else r,
        P r := by
    intro P hclaimed hleft r hr
    obtain ⟨r, hmem, rfl⟩ := List.mem_map.mp hr
    by_cases htaken : r ∈ o.taken limit
    · rw [if_pos htaken]
      exact hclaimed r hmem htaken
    · rw [if_neg htaken]
      exact hleft r hmem htaken
  have hopen : ∀ r ∈ o.taken limit, r.status.terminal = false := fun r hr =>
    OutboxRow.due_open (Outbox.taken_due hr).2
  refine { h with
    ids := ?_
    known := hback (fun r hr _ => h.known r hr) fun r hr _ => h.known r hr
    leased := hback (fun _ _ _ _ => rfl) fun r hr _ => h.leased r hr
    blank := hback (fun r _ _ => nofun) fun r hr _ => h.blank r hr
    ended := hback (fun r _ _ => nofun) fun r hr _ => h.ended r hr
    going := hback (fun r hr htaken _ => h.going r hr (hopen r htaken)) fun r hr _ => h.going r hr
    falling := ?_
    claimsKnown := fun c hc => ?_
    current := fun c hc => hback (fun r hr htaken hid => ?_) fun r hr htaken hid => ?_
    called := fun c hc => ?_ }
  · rw [List.map_map]
    have hids : ((fun r : OutboxRow => r.id) ∘ fun r =>
        if r ∈ o.taken limit then r.claimed o.clock leaseSeconds else r) = fun r => r.id := by
      funext r
      rw [Function.comp_apply]
      split
      · rfl
      · rfl
    rw [hids]
    exact h.ids
  · rw [List.pairwise_append]
    refine ⟨?_, h.falling, ?_⟩
    · rw [List.pairwise_map]
      have hids := h.taken_ids limit
      rw [List.Nodup, List.pairwise_map] at hids
      exact hids.imp fun hne heq => absurd heq hne
    · intro c hc d hd heq
      obtain ⟨r, hr, rfl⟩ := List.mem_map.mp hc
      have hle := h.current d hd r (Outbox.taken_due hr).1 heq
      change d.attempts < r.attempts + 1
      omega
  · rcases List.mem_append.mp hc with hnew | hold
    · obtain ⟨r, hr, rfl⟩ := List.mem_map.mp hnew
      exact ⟨Nat.succ_le_succ (Nat.zero_le _), h.row_lt (Outbox.taken_due hr).1⟩
    · exact h.claimsKnown c hold
  · change c.attempts ≤ r.attempts + 1
    rcases List.mem_append.mp hc with hnew | hold
    · obtain ⟨r', hr', rfl⟩ := List.mem_map.mp hnew
      rw [Outbox.row_eq h hr (Outbox.taken_due hr').1 hid]
    · have hle := h.current c hold r hr hid
      omega
  · rcases List.mem_append.mp hc with hnew | hold
    · obtain ⟨r', hr', rfl⟩ := List.mem_map.mp hnew
      rw [Outbox.row_eq h hr (Outbox.taken_due hr').1 hid] at htaken
      exact absurd hr' htaken
    · exact h.current c hold r hr hid
  · obtain ⟨⟨d, hd⟩, hn⟩ := h.called c hc
    exact ⟨⟨d, List.mem_append_right _ hd⟩, hn⟩

/-- What a claim hands out is claimed, and not yet sent at that attempt. -/
theorem Outbox.Kept.claim_standing {o : Outbox} (h : o.Kept) (limit : ℕ) (leaseSeconds : ℤ)
    (drainer : ℕ) :
    Standing drainer (o.claimDue limit leaseSeconds drainer).1
      (.idle (o.claimDue limit leaseSeconds drainer).2) := by
  unfold Outbox.claimDue
  split
  swap
  · exact Standing.idle drainer o
  refine ⟨fun r hr => ?_, fun r hr => ?_, ?_, fun r hr => ?_, trivial⟩
  · obtain ⟨r, htaken, rfl⟩ := List.mem_map.mp hr
    exact List.mem_append_left _ (List.mem_map.mpr ⟨r, htaken, rfl⟩)
  · obtain ⟨r, htaken, rfl⟩ := List.mem_map.mp hr
    exact h.known r (Outbox.taken_due htaken).1
  · change (((o.taken limit).map (·.claimed o.clock leaseSeconds)).map OutboxRow.key).Nodup
    apply List.Nodup.of_map Prod.fst
    rw [List.map_map, List.map_map]
    exact h.taken_ids limit
  · obtain ⟨r, htaken, rfl⟩ := List.mem_map.mp hr
    intro hcall
    obtain ⟨⟨d, hd⟩, -⟩ := h.called _ hcall
    have hle : r.attempts + 1 ≤ r.attempts := h.current _ hd r (Outbox.taken_due htaken).1 rfl
    omega

/-! ### Marks -/

@[simp] theorem Mark.apply_id (now : ℤ) (m : Mark) (r : OutboxRow) : (m.apply now r).id = r.id := by
  cases m <;> rfl

@[simp] theorem Mark.apply_max (now : ℤ) (m : Mark) (r : OutboxRow) :
    (m.apply now r).maxAttempts = r.maxAttempts := by
  cases m <;> rfl

@[simp] theorem Mark.apply_attempts (now : ℤ) (m : Mark) (r : OutboxRow) :
    (m.apply now r).attempts = r.attempts := by
  cases m <;> rfl

theorem Mark.apply_not_sending {m : Mark} (hm : m.Fair) (now : ℤ) (r : OutboxRow) :
    (m.apply now r).status ≠ .sending := by
  intro hsending
  cases m with
  | sent => cases hsending
  | retry => cases hsending
  | final status =>
    change status = .sending at hsending
    rw [hsending] at hm
    exact absurd hm.1 (by decide)

/-- A mark that ends a message says how, and takes its text. -/
theorem Mark.apply_terminal (now : ℤ) (m : Mark) {r : OutboxRow}
    (h : (m.apply now r).status.terminal) :
    m.ending = some (m.apply now r).status ∧ (m.apply now r).subject = "" ∧
      (m.apply now r).html = "" := by
  cases m with
  | sent => exact ⟨rfl, rfl, rfl⟩
  | retry => cases h
  | final => exact ⟨rfl, rfl, rfl⟩

theorem Mark.apply_open {m : Mark} (hm : m.Fair) {now : ℤ} {r : OutboxRow}
    (h : (m.apply now r).status.terminal = false) : m.ending = none := by
  cases m with
  | sent => cases h
  | retry => rfl
  | final status =>
    change status.terminal = false at h
    rw [hm.1] at h
    cases h

theorem Outbox.held_row {o : Outbox} {id attempts : ℕ} (h : o.held id attempts = true) :
    ∃ r ∈ o.rows, r.id = id ∧ r.status = .sending ∧ r.attempts = attempts := by
  obtain ⟨r, hr, hheld⟩ := List.any_eq_true.mp h
  simp only [Bool.and_eq_true, decide_eq_true_eq] at hheld
  exact ⟨r, hr, hheld.1.1, hheld.1.2, hheld.2⟩

theorem Outbox.mark_lost {o : Outbox} {id attempts : ℕ} {m : Mark}
    (h : (o.mark id attempts m).2 = false) : (o.mark id attempts m).1 = o := by
  unfold Outbox.mark at h ⊢
  split
  · rename_i hheld
    rw [if_pos hheld] at h
    cases h
  · rfl

@[simp] theorem Outbox.mark_calls (o : Outbox) (id attempts : ℕ) (m : Mark) :
    (o.mark id attempts m).1.calls = o.calls := by
  unfold Outbox.mark
  split
  · rfl
  · rfl

theorem Outbox.mark_held {o : Outbox} {id attempts : ℕ} {m : Mark}
    (h : (o.mark id attempts m).2 = true) : o.held id attempts = true := by
  unfold Outbox.mark at h
  split at h
  · assumption
  · cases h

theorem Outbox.grows_mark (o : Outbox) (id attempts : ℕ) (m : Mark) :
    o.Grows (o.mark id attempts m).1 := by
  unfold Outbox.mark
  split
  · refine ⟨List.prefix_rfl, fun _ hc => hc, ?_⟩
    intro e he
    cases hending : m.ending with
    | none => exact he
    | some status => exact List.mem_cons_of_mem _ he
  · exact Outbox.Grows.refl o

theorem Outbox.Kept.mark {o : Outbox} (h : o.Kept) (id attempts : ℕ) {m : Mark} (hm : m.Fair) :
    (o.mark id attempts m).1.Kept := by
  unfold Outbox.mark
  split
  swap
  · exact h
  rename_i hheld
  obtain ⟨held, hrow, hid, hsending, hattempts⟩ := Outbox.held_row hheld
  have hopen : held.status.terminal = false := by rw [hsending]; rfl
  have hnot : ∀ e ∈ o.ends, e.1 ≠ id := hid ▸ h.going held hrow hopen
  have hother : ∀ r ∈ o.rows, ¬ (r.id = id ∧ r.status = .sending ∧ r.attempts = attempts) →
      r.id ≠ id := by
    intro r hr hunmatched hsame
    have heq := Outbox.row_eq h hr hrow (hsame.trans hid.symm)
    subst heq
    exact hunmatched ⟨hid, hsending, hattempts⟩
  refine h.rewrite _ ?_ ?_ ?_ ?_ ?_ ?_ ?_ ?_ ?_ ?_
  · intro r
    split
    · exact m.apply_id _ r
    · rfl
  · intro r
    split
    · exact m.apply_max _ r
    · rfl
  · intro r
    split
    · exact m.apply_attempts _ r
    · rfl
  · intro r hr
    split
    · intro hagain
      exact absurd hagain (m.apply_not_sending hm _ r)
    · exact h.leased r hr
  · intro r hr
    split
    · intro hterminal
      exact (m.apply_terminal _ hterminal).2
    · exact h.blank r hr
  · intro r hr
    split
    · rename_i hmatched
      intro hterminal
      rw [(m.apply_terminal _ hterminal).1, hmatched.1]
      exact List.mem_cons_self
    · intro hterminal
      have hend := h.ended r hr hterminal
      cases hending : m.ending with
      | none => exact hend
      | some status => exact List.mem_cons_of_mem _ hend
  · intro r hr
    split
    · rename_i hmatched
      intro hstill
      rw [m.apply_open hm hstill, hmatched.1]
      exact hnot
    · rename_i hunmatched
      intro hstill e he
      cases hending : m.ending with
      | none =>
        rw [hending] at he
        exact h.going r hr hstill e he
      | some status =>
        rw [hending] at he
        rcases List.mem_cons.mp he with rfl | hold
        · exact (hother r hr hunmatched).symm
        · exact h.going r hr hstill e hold
  · cases hending : m.ending with
    | none => exact h.once
    | some status =>
      refine List.nodup_cons.mpr ⟨?_, h.once⟩
      intro hmem
      obtain ⟨e, he, heq⟩ := List.mem_map.mp hmem
      exact hnot e he heq
  · intro e he
    cases hending : m.ending with
    | none =>
      rw [hending] at he
      exact h.endsKnown e he
    | some status =>
      rw [hending] at he
      rcases List.mem_cons.mp he with rfl | hold
      · rw [← hid]
        exact h.row_lt hrow
      · exact h.endsKnown e hold
  · intro e he
    cases hending : m.ending with
    | none => exact he
    | some status => exact List.mem_cons_of_mem _ he

/-! ### Calls of the transport -/

/-- Two drainers never claimed one attempt of a message. -/
theorem Outbox.Kept.one_drainer {o : Outbox} (h : o.Kept) {id attempts i j : ℕ}
    (hi : ⟨id, attempts, i⟩ ∈ o.claims) (hj : ⟨id, attempts, j⟩ ∈ o.claims) : i = j := by
  have hkeys : (o.claims.map fun c => (c.id, c.attempts)).Nodup := by
    rw [List.Nodup, List.pairwise_map]
    refine h.falling.imp fun {c d} hfalls heq => ?_
    have hlt := hfalls (Prod.ext_iff.mp heq).1
    have hsame : c.attempts = d.attempts := (Prod.ext_iff.mp heq).2
    omega
  exact congrArg Claim.drainer (List.inj_on_of_nodup_map hkeys hi hj rfl)

theorem find_latest {claims : List Claim} {c : Claim}
    (hfalling : claims.Pairwise fun c d => c.id = d.id → d.attempts < c.attempts)
    (hc : c ∈ claims) (htop : ∀ d ∈ claims, d.id = c.id → d.attempts ≤ c.attempts) :
    claims.find? (·.id = c.id) = some c := by
  induction claims with
  | nil => cases hc
  | cons d claims ih =>
    obtain ⟨hhead, hrest⟩ := List.pairwise_cons.mp hfalling
    by_cases hid : d.id = c.id
    · rw [List.find?_cons_of_pos (by simpa using hid)]
      rcases List.mem_cons.mp hc with rfl | hmem
      · rfl
      · have hlt := hhead c hmem hid
        have hle := htop d List.mem_cons_self hid
        omega
    · rw [List.find?_cons_of_neg (by simpa using hid)]
      rcases List.mem_cons.mp hc with rfl | hmem
      · exact absurd rfl hid
      · exact ih hrest hmem fun d hd => htop d (List.mem_cons_of_mem _ hd)

/-- A message that is held is held by the drainer of its latest claim. -/
theorem Outbox.Kept.latest {o : Outbox} (h : o.Kept) {id attempts i : ℕ}
    (hclaimed : ⟨id, attempts, i⟩ ∈ o.claims) (hheld : o.held id attempts = true) :
    o.claims.find? (·.id = id) = some ⟨id, attempts, i⟩ := by
  obtain ⟨r, hr, hid, -, hattempts⟩ := Outbox.held_row hheld
  refine find_latest (c := ⟨id, attempts, i⟩) h.falling hclaimed fun d hd hsame => ?_
  have hle := h.current d hd r hr (hid.trans hsame.symm)
  exact hattempts ▸ hle

/-- A call of the transport, at an attempt the drainer claimed and has not sent yet. -/
theorem Outbox.Kept.call {o : Outbox} (h : o.Kept) {r : OutboxRow} {i : ℕ}
    (hclaimed : ⟨r.id, r.attempts, i⟩ ∈ o.claims) (hsize : o.created[r.id]? = some r.maxAttempts)
    (hle : r.attempts ≤ r.maxAttempts) (hfresh : r.key ∉ o.calls) :
    Outbox.Kept { o with calls := (r.id, r.attempts) :: o.calls } := by
  refine { h with
    callsOnce := List.nodup_cons.mpr ⟨hfresh, h.callsOnce⟩
    called := fun c hc => ?_ }
  rcases List.mem_cons.mp hc with rfl | hold
  · exact ⟨⟨i, hclaimed⟩, r.maxAttempts, hsize, hle⟩
  · exact h.called c hold

/-- Each attempt calls the transport once, and no attempt goes past the last. -/
theorem Outbox.Kept.calls_le {o : Outbox} (h : o.Kept) (id : ℕ) :
    (o.calls.filter (·.1 = id)).length ≤ o.created.getD id 0 := by
  have hmem : ∀ c ∈ o.calls.filter (·.1 = id), c ∈ o.calls ∧ c.1 = id := by
    intro c hc
    obtain ⟨hcall, hid⟩ := List.mem_filter.mp hc
    exact ⟨hcall, by simpa using hid⟩
  have hnodup : ((o.calls.filter (·.1 = id)).map Prod.snd).Nodup := by
    refine List.Nodup.map_on ?_ (h.callsOnce.filter _)
    intro c hc d hd heq
    exact Prod.ext ((hmem c hc).2.trans (hmem d hd).2.symm) heq
  have hsub : (o.calls.filter (·.1 = id)).map Prod.snd ⊆ List.range' 1 (o.created.getD id 0) := by
    intro a ha
    obtain ⟨c, hc, rfl⟩ := List.mem_map.mp ha
    obtain ⟨hcall, hid⟩ := hmem c hc
    obtain ⟨⟨d, hd⟩, n, hn, hle⟩ := h.called c hcall
    have hone := (h.claimsKnown _ hd).1
    rw [List.getD_eq_getElem?_getD, ← hid, hn, Option.getD_some, List.mem_range'_1]
    dsimp only at hone
    omega
  have hlength := (hnodup.subperm hsub).length_le
  rwa [List.length_map, List.length_range'] at hlength

/-! ### Steps -/

theorem gate_fair {r : OutboxRow} {reads : GateReads} {status : Status} {reason : String}
    (h : gate r reads = some (status, reason)) : status.terminal ∧ status ≠ .sent := by
  unfold gate at h
  split at h
  · cases h
    decide
  · split at h
    · cases h
      decide
    · split at h
      · cases h
        decide
      · split at h
        · cases h
          decide
        · cases h

theorem mark_of_fair (clock : ℤ) (r : OutboxRow) (outcome : TransportOutcome) :
    (markOf clock r outcome).Fair := by
  unfold markOf
  split
  · trivial
  · split
    · trivial
    · exact ⟨rfl, nofun⟩

/-- What a statement does to the store: it keeps it, adds to it, and calls the transport only for the
message in hand. -/
structure Moves (o o' : Outbox) (p : Phase) : Prop where
  kept : o'.Kept
  grows : o.Grows o'
  calls : o'.calls = o.calls ∨
    ∃ row queue, p = .transporting row queue ∧ o'.calls = row.key :: o.calls

theorem Standing.head {i : ℕ} {o : Outbox} {p : Phase} (h : Standing i o p) {r : OutboxRow}
    {queue : List OutboxRow} (hp : p.copies = r :: queue) :
    ⟨r.id, r.attempts, i⟩ ∈ o.claims ∧ o.created[r.id]? = some r.maxAttempts :=
  ⟨h.claimed r (hp ▸ List.mem_cons_self), h.sized r (hp ▸ List.mem_cons_self)⟩

theorem Standing.call {i : ℕ} {o : Outbox} {row : OutboxRow} {queue : List OutboxRow} (h : o.Kept)
    (hstand : Standing i o (.transporting row queue)) :
    Outbox.Kept { o with calls := (row.id, row.attempts) :: o.calls } := by
  obtain ⟨hclaimed, hsize⟩ := hstand.head rfl
  exact h.call hclaimed hsize hstand.within (hstand.fresh row List.mem_cons_self)

theorem advance_moves {i : ℕ} {o : Outbox} {p : Phase} (h : o.Kept) (hstand : Standing i o p)
    (r : Reply) : Moves o (advance i o p r).1 p := by
  have hstays : Moves o o p := ⟨h, Outbox.Grows.refl o, Or.inl rfl⟩
  unfold advance
  split
  · rename_i now
    exact ⟨h.clock now, ⟨List.prefix_rfl, fun _ hc => hc, fun _ he => he⟩, Or.inl rfl⟩
  · rename_i m
    exact ⟨h.insert m, o.grows_insert m, Or.inl rfl⟩
  · rename_i messageId event
    exact ⟨h.set_delivery_event messageId event,
      ⟨List.prefix_rfl, fun _ hc => hc, fun _ he => he⟩, Or.inl rfl⟩
  · rename_i olderThanSeconds
    exact ⟨h.prune olderThanSeconds, ⟨List.prefix_rfl, fun _ hc => hc, fun _ he => he⟩, Or.inl rfl⟩
  · exact hstays
  · rename_i limit leaseSeconds answered
    refine ⟨h.claim_due limit leaseSeconds i, o.grows_claim_due limit leaseSeconds i, Or.inl ?_⟩
    unfold Outbox.claimDue
    split
    · rfl
    · rfl
  · exact hstays
  · exact hstays
  · exact hstays
  · rename_i outcome row queue
    exact ⟨hstand.call h, ⟨List.prefix_rfl, fun _ hc => hc, fun _ he => he⟩,
      Or.inr ⟨row, queue, rfl, rfl⟩⟩
  · rename_i row queue
    exact ⟨hstand.call h, ⟨List.prefix_rfl, fun _ hc => hc, fun _ he => he⟩,
      Or.inr ⟨row, queue, rfl, rfl⟩⟩
  · rename_i answered row m queue
    exact ⟨h.mark row.id row.attempts hstand.within, o.grows_mark row.id row.attempts m,
      Or.inl (o.mark_calls row.id row.attempts m)⟩
  · exact hstays
  · rename_i row queue
    refine ⟨{ h with turned := fun id hid => ?_ },
      ⟨List.prefix_rfl, fun _ hc => hc, fun _ he => he⟩, Or.inl rfl⟩
    rcases List.mem_cons.mp hid with rfl | hold
    · exact hstand.within
    · exact h.turned id hold
  · exact hstays
  · exact hstays

/-- A batch with its first message put aside. -/
theorem Standing.rest {i : ℕ} {o : Outbox} {p : Phase} (h : Standing i o p) {r : OutboxRow}
    {queue : List OutboxRow} (hp : p.copies = r :: queue)
    (hunsent : p.unsent = r :: queue ∨ p.unsent = queue) : Standing i o (.idle queue) := by
  have hsub : queue.Sublist p.unsent := by
    rcases hunsent with heq | heq
    · rw [heq]
      exact List.sublist_cons_self r queue
    · rw [heq]
  refine ⟨fun q hq => h.claimed q ?_, fun q hq => h.sized q ?_, ?_, fun q hq => ?_, trivial⟩
  · exact hp ▸ List.mem_cons_of_mem _ hq
  · exact hp ▸ List.mem_cons_of_mem _ hq
  · exact (hsub.map _).nodup h.apart
  · exact h.fresh q (hsub.subset hq)

/-- The message in hand is given up or was sent: only the rest of the batch may still be sent. -/
theorem Standing.passed {i : ℕ} {o : Outbox} {row : OutboxRow} {queue : List OutboxRow} {p : Phase}
    (h : Standing i o (.idle queue))
    (hhead : ⟨row.id, row.attempts, i⟩ ∈ o.claims ∧ o.created[row.id]? = some row.maxAttempts)
    (hp : p.copies = row :: queue) (hunsent : p.unsent = queue) (hwithin : p.Within o) :
    Standing i o p := by
  refine ⟨fun q hq => ?_, fun q hq => ?_, ?_, fun q hq => ?_, hwithin⟩
  · rw [hp] at hq
    rcases List.mem_cons.mp hq with rfl | hrest
    · exact hhead.1
    · exact h.claimed q hrest
  · rw [hp] at hq
    rcases List.mem_cons.mp hq with rfl | hrest
    · exact hhead.2
    · exact h.sized q hrest
  · rw [hunsent]
    exact h.apart
  · rw [hunsent] at hq
    exact h.fresh q hq

theorem Standing.deliver_one {i : ℕ} {o : Outbox} {row : OutboxRow} {queue : List OutboxRow}
    (h : Standing i o (.idle (row :: queue))) : Standing i o (deliverOne row queue) := by
  unfold deliverOne
  split
  · exact (h.rest rfl (Or.inl rfl)).passed (h.head rfl) rfl rfl ⟨rfl, nofun⟩
  · rename_i hle
    exact ⟨h.claimed, h.sized, h.apart, h.fresh, Nat.le_of_not_lt hle⟩

theorem Standing.after_gate {i : ℕ} {o : Outbox} {row : OutboxRow} {queue : List OutboxRow}
    (h : Standing i o (.gating row queue)) (reads : GateReads) :
    Standing i o (afterGate row reads queue) := by
  unfold afterGate
  split
  · rename_i status reason hgate
    exact (h.rest rfl (Or.inl rfl)).passed (h.head rfl) rfl rfl (gate_fair hgate)
  · exact ⟨h.claimed, h.sized, h.apart, h.fresh, h.within⟩

/-- After the call, the rest of the batch is still unsent: no other message of it is this one. -/
theorem Standing.sent {i : ℕ} {o : Outbox} {row : OutboxRow} {queue : List OutboxRow}
    (h : Standing i o (.transporting row queue)) :
    Standing i { o with calls := (row.id, row.attempts) :: o.calls } (.idle queue) := by
  have hrest := h.rest rfl (Or.inl rfl)
  refine hrest.grow ⟨List.prefix_rfl, fun _ hc => hc, fun _ he => he⟩ fun q hq hcall => ?_
  rcases List.mem_cons.mp hcall with heq | hold
  · have hnodup : (row.key :: queue.map OutboxRow.key).Nodup := h.apart
    exact (List.nodup_cons.mp hnodup).1 (List.mem_map.mpr ⟨q, hq, heq⟩)
  · exact hrest.fresh q hq hold

theorem Standing.after_mark {i : ℕ} {o : Outbox} {row : OutboxRow} {m : Mark}
    {queue : List OutboxRow} (h : Standing i o (.marking row m queue))
    (hmarked : (o.mark row.id row.attempts m).2 = true) :
    Standing i (o.mark row.id row.attempts m).1 (afterMark row m queue) := by
  have hgrows := o.grows_mark row.id row.attempts m
  have hnext : Standing i (o.mark row.id row.attempts m).1 (.marking row m queue) :=
    h.grow hgrows fun q hq => by
      rw [Outbox.mark_calls]
      exact h.fresh q hq
  have hrest := hnext.rest rfl (Or.inr rfl)
  unfold afterMark
  cases m with
  | sent => exact hrest
  | retry => exact hrest
  | final status reason statusCode errorCode =>
    refine hrest.passed (hnext.head rfl) rfl rfl ⟨status, h.within.2, ?_⟩
    unfold Outbox.mark
    rw [if_pos (Outbox.mark_held hmarked)]
    exact List.mem_cons_self

theorem advance_standing {i : ℕ} {o : Outbox} {p : Phase} (h : o.Kept) (hstand : Standing i o p)
    (r : Reply) : Standing i (advance i o p r).1 (advance i o p r).2 := by
  have hmoves := advance_moves h hstand r
  unfold advance at hmoves ⊢
  split
  · exact hstand.grow hmoves.grows hstand.fresh
  · exact hstand.grow hmoves.grows hstand.fresh
  · exact hstand.grow hmoves.grows hstand.fresh
  · exact hstand.grow hmoves.grows hstand.fresh
  · exact Standing.idle i o
  · rename_i limit leaseSeconds answered
    cases answered with
    | true => exact h.claim_standing limit leaseSeconds i
    | false => exact Standing.idle i _
  · exact hstand.deliver_one
  · exact hstand.after_gate _
  · exact (hstand.rest rfl (Or.inl rfl)).passed (hstand.head rfl) rfl rfl trivial
  · exact hstand.sent.passed (hstand.head rfl) rfl rfl (mark_of_fair _ _ _)
  · exact hstand.sent
  · rename_i answered row m queue
    dsimp only
    split
    · rename_i hmarked
      exact hstand.after_mark hmarked.2
    · refine (hstand.rest rfl (Or.inr rfl)).grow (o.grows_mark row.id row.attempts m) fun q hq => ?_
      rw [Outbox.mark_calls]
      exact hstand.fresh q hq
  · exact hstand.rest rfl (Or.inr rfl)
  · exact (hstand.rest rfl (Or.inr rfl)).grow hmoves.grows hstand.fresh
  · exact hstand.rest rfl (Or.inr rfl)
  · exact hstand

/-! ### Runs -/

def Sound (w : World ℕ Outbox Phase) : Prop :=
  w.store.Kept ∧ ∀ i, Standing i w.store (w.phase i)

/-- Another drainer's call is not of a message this one has yet to send. -/
theorem Standing.others {i j : ℕ} {o o' : Outbox} {p q : Phase} (h : o.Kept)
    (hi : Standing i o p) (hj : Standing j o q) (hne : j ≠ i) (hmoves : Moves o o' p) :
    Standing j o' q := by
  refine hj.grow hmoves.grows fun r hr hcall => ?_
  rcases hmoves.calls with hsame | ⟨row, queue, rfl, hcalled⟩
  · rw [hsame] at hcall
    exact hj.fresh r hr hcall
  · rw [hcalled] at hcall
    rcases List.mem_cons.mp hcall with heq | hold
    · have hmem : r ∈ q.copies := by
        cases q with
        | idle | gating | transporting => exact hr
        | marking | logging => exact List.mem_cons_of_mem _ hr
      have hclaim := hj.claimed r hmem
      have hown := (hi.head rfl).1
      obtain ⟨hid, hattempts⟩ : r.id = row.id ∧ r.attempts = row.attempts := Prod.ext_iff.mp heq
      rw [← hid, ← hattempts] at hown
      exact hne (h.one_drainer hclaim hown)
    · exact hj.fresh r hr hold

theorem Sound.step {w : World ℕ Outbox Phase} (h : Sound w) (i : ℕ) (r : Reply) :
    Sound (step advance w (i, r)) := by
  have hmoves := advance_moves h.1 (h.2 i) r
  refine ⟨hmoves.kept, step_standing_apart (advance_standing h.1 (h.2 i) r) fun j hj => ?_⟩
  exact (h.2 i).others h.1 (h.2 j) hj hmoves

theorem Sound.run {w : World ℕ Outbox Phase} (h : Sound w) (events : List (ℕ × Reply)) :
    Sound (run advance w events) ∧ w.store.Grows (run advance w events).store := by
  refine @run_keeps _ _ _ _ _ _ (fun w' => Sound w' ∧ w.store.Grows w'.store)
    (fun _ _ _ _ => True) ?_ _ events ⟨h, Outbox.Grows.refl _⟩ (along_of_all (fun _ _ _ _ => trivial) w events)
  rintro w' i r ⟨hsound, hgrows⟩ -
  exact ⟨hsound.step i r, hgrows.trans (advance_moves hsound.1 (hsound.2 i) r).grows⟩

theorem sound_start (clock : ℤ) : Sound (start clock) := by
  refine ⟨⟨?_, ?_, ?_, ?_, ?_, ?_, ?_, ?_, ?_, ?_, ?_, ?_, ?_, ?_⟩, fun i => Standing.idle i _⟩
  all_goals simp [start]

/-- A message that is due is handed out, or as many others that waited longer are. -/
theorem Outbox.offered (o : Outbox) {r : OutboxRow} (hr : r ∈ o.rows) (hdue : r.due o.clock = true)
    {limit : ℕ} {leaseSeconds : ℤ} (hclaimable : claimable limit leaseSeconds = true) (drainer : ℕ) :
    let given := (o.claimDue limit leaseSeconds drainer).2
    r.claimed o.clock leaseSeconds ∈ given ∨
      given.length = limit ∧ ∀ g ∈ given, g.nextAttemptAt ≤ r.nextAttemptAt := by
  have hgiven : (o.claimDue limit leaseSeconds drainer).2 =
      (o.taken limit).map (·.claimed o.clock leaseSeconds) := by
    unfold Outbox.claimDue
    rw [if_pos hclaimable]
  dsimp only
  rw [hgiven, List.length_map]
  have htotal : Std.Total fun a b : OutboxRow => a.nextAttemptAt ≤ b.nextAttemptAt :=
    ⟨fun a b => le_total _ _⟩
  have htrans : IsTrans OutboxRow fun a b => a.nextAttemptAt ≤ b.nextAttemptAt :=
    ⟨fun _ _ _ => le_trans⟩
  have hsorted := List.pairwise_insertionSort
    (fun a b : OutboxRow => a.nextAttemptAt ≤ b.nextAttemptAt) (o.rows.filter (·.due o.clock))
  have hmem : r ∈ (o.rows.filter (·.due o.clock)).insertionSort
      fun a b => a.nextAttemptAt ≤ b.nextAttemptAt := by
    rw [List.mem_insertionSort]
    exact List.mem_filter.mpr ⟨hr, hdue⟩
  unfold Outbox.taken
  rw [← List.take_append_drop limit (List.insertionSort _ _)] at hmem hsorted
  rcases List.mem_append.mp hmem with htaken | hleft
  · exact Or.inl (List.mem_map_of_mem htaken)
  · refine Or.inr ⟨?_, fun g hg => ?_⟩
    · have hlong := List.length_pos_of_mem hleft
      rw [List.length_drop] at hlong
      rw [List.length_take]
      omega
    · obtain ⟨q, hq, rfl⟩ := List.mem_map.mp hg
      exact (List.pairwise_append.mp hsorted).2.2 q hq r hleft

/-- A message that is not at an end waits for a time, and is offered again from then on. -/
theorem Outbox.Kept.offered_again {o : Outbox} (h : o.Kept) {r : OutboxRow} (hr : r ∈ o.rows)
    (hopen : r.status.terminal = false) :
    ∃ time, (r.status = .pending ∧ r.nextAttemptAt = time ∨
        r.status = .sending ∧ r.leaseExpiresAt = some time) ∧
      ∀ now, time ≤ now → r.due now = true := by
  cases hstatus : r.status with
  | pending =>
    refine ⟨r.nextAttemptAt, Or.inl ⟨rfl, rfl⟩, fun now hnow => ?_⟩
    unfold OutboxRow.due
    simp [hstatus, hnow]
  | sending =>
    obtain ⟨lease, hlease⟩ := Option.isSome_iff_exists.mp (h.leased r hr hstatus)
    refine ⟨lease, Or.inr ⟨rfl, hlease⟩, fun now hnow => ?_⟩
    unfold OutboxRow.due
    simp [hstatus, hlease, hnow]
  | sent | failed | cancelled | suppressed =>
    rw [hstatus] at hopen
    cases hopen

/-- A message that ended is the same message ever after. -/
theorem Outbox.Kept.still_ended {o later : Outbox} (h : o.Kept) (hlater : later.Kept)
    (hgrows : o.Grows later) {r r' : OutboxRow} (hr : r ∈ o.rows) (hterminal : r.status.terminal)
    (hr' : r' ∈ later.rows) (hid : r'.id = r.id) :
    r'.status = r.status ∧ r'.subject = "" ∧ r'.html = "" := by
  have hend := hgrows.ends (h.ended r hr hterminal)
  cases hopen : r'.status.terminal with
  | false => exact absurd hid.symm (hlater.going r' hr' hopen _ hend)
  | true =>
    have hend' := hlater.ended r' hr' hopen
    have hsame := List.inj_on_of_nodup_map hlater.once hend' hend hid
    exact ⟨(Prod.ext_iff.mp hsame).2, hlater.blank r' hr' hopen⟩

/-- However drainers overlap: the transport is called no oftener for a message than it may be
attempted; a mark goes through only for the latest claim; an end is the end, without text; log rows
are turned only for mail that was not sent; and what has not ended is offered again. -/
theorem outbox_kept (clock : ℤ) (events more : List (ℕ × Reply)) :
    let w := run advance (start clock) events
    let later := run advance w more
    (∀ id, (w.store.calls.filter (·.1 = id)).length ≤ w.store.created.getD id 0) ∧
    (∀ i row m queue, w.phase i = .marking row m queue →
      let marked := w.store.mark row.id row.attempts m
      (marked.2 = true →
        w.store.claims.find? (·.id = row.id) = some ⟨row.id, row.attempts, i⟩) ∧
      (marked.2 = false → marked.1 = w.store)) ∧
    (∀ r ∈ w.store.rows, r.status.terminal → r.subject = "" ∧ r.html = "" ∧
      ∀ r' ∈ later.store.rows, r'.id = r.id →
        r'.status = r.status ∧ r'.subject = "" ∧ r'.html = "") ∧
    (∀ id ∈ w.store.flipped, (∃ status, status ≠ .sent ∧ (id, status) ∈ w.store.ends) ∧
      ∀ r ∈ w.store.rows, r.id = id → r.status.terminal ∧ r.status ≠ .sent) ∧
    ∀ r ∈ w.store.rows, r.status.terminal = false →
      ∃ time, (r.status = .pending ∧ r.nextAttemptAt = time ∨
          r.status = .sending ∧ r.leaseExpiresAt = some time) ∧
        ∀ now, time ≤ now → ∀ limit leaseSeconds drainer, claimable limit leaseSeconds = true →
          let given := (Outbox.claimDue { w.store with clock := now } limit leaseSeconds drainer).2
          r.claimed now leaseSeconds ∈ given ∨
            given.length = limit ∧ ∀ g ∈ given, g.nextAttemptAt ≤ r.nextAttemptAt := by
  dsimp only
  obtain ⟨⟨hkept, hstand⟩, -⟩ := (sound_start clock).run events
  obtain ⟨⟨hlater, -⟩, hgrows⟩ := Sound.run ⟨hkept, hstand⟩ more
  refine ⟨hkept.calls_le, ?_, ?_, ?_, ?_⟩
  · intro i row m queue hphase
    have hown := hstand i
    rw [hphase] at hown
    exact ⟨fun hmarked => hkept.latest (hown.head rfl).1 (Outbox.mark_held hmarked),
      Outbox.mark_lost⟩
  · intro r hr hterminal
    obtain ⟨hsubject, hhtml⟩ := hkept.blank r hr hterminal
    exact ⟨hsubject, hhtml, fun r' hr' hid =>
      hkept.still_ended hlater hgrows hr hterminal hr' hid⟩
  · intro id hid
    obtain ⟨status, hnot, hend⟩ := hkept.turned id hid
    refine ⟨⟨status, hnot, hend⟩, fun r hr hsame => ?_⟩
    cases hopen : r.status.terminal with
    | false => exact absurd hsame.symm (hkept.going r hr hopen _ hend)
    | true =>
      have heq := List.inj_on_of_nodup_map hkept.once (hkept.ended r hr hopen) hend hsame
      have hstatus : r.status = status := (Prod.ext_iff.mp heq).2
      exact ⟨rfl, hstatus ▸ hnot⟩
  · intro r hr hopen
    obtain ⟨time, hwhen, hdue⟩ := hkept.offered_again hr hopen
    refine ⟨time, hwhen, fun now hnow limit leaseSeconds drainer hclaimable => ?_⟩
    exact Outbox.offered { (run advance (start clock) events).store with clock := now } hr
      (hdue now hnow) hclaimable drainer

end Caflow.Mail
