import Caflow.Receivables.InterestDrafts

namespace Caflow.Receivables.InterestDrafts
open Calendar (Day)
open Interleaving LateInterest

/-- Interest for days that lie ahead of what is charged already. -/
structure Accrued (outstandingPaise rateBps interest days : ℤ) (periodFrom periodTo : Day) :
    Prop where
  later : periodFrom < periodTo
  counted : days = (periodTo.ordinal : ℤ) - periodFrom.ordinal
  charged : interest = interestPaise outstandingPaise rateBps days
  positive : interest ≠ 0

variable {store : Store} {request : Request}

/-- A document that is due, and the standing claims on its invoice: they end where its own days
begin, or at the date of the call. -/
structure Due (asOf : Day) (store : Store) (doc : Chargeable) : Prop where
  upTo : doc.periodTo = asOf
  accrued : Accrued doc.invoice.outstandingPaise doc.rateBps doc.interestPaise doc.days
    doc.periodFrom doc.periodTo
  ahead : ∀ c ∈ store.charges, c.Stands store.invoices → c.salesInvoiceId = doc.invoice.id →
    c.periodTo ≤ doc.periodFrom ∨ c.periodTo = asOf

/-- One store comes of another by letting claims go: what is left of them is as it was, and none
stands that did not. -/
structure Fewer (before after : Store) : Prop where
  drawn : after.drawn = before.drawn
  ids : (after.charges.map Charge.id).Sublist (before.charges.map Charge.id)
  kept : ∀ c ∈ after.charges, ∃ c' ∈ before.charges,
    c = { c' with interestInvoiceId := c.interestInvoiceId } ∧
      (c.Stands after.invoices → c'.Stands before.invoices)

theorem Fewer.same (h : after.charges = before.charges) (hdrawn : after.drawn = before.drawn)
    (hstands : ∀ c ∈ before.charges, c.Stands after.invoices → c.Stands before.invoices) :
    Fewer before after := by
  refine ⟨hdrawn, by rw [h], fun c hc => ⟨c, h ▸ hc, rfl, hstands c (h ▸ hc)⟩⟩

/-- No two claims of an invoice that stand are for one day. -/
structure Books (store : Store) : Prop where
  drawn : ∀ c ∈ store.charges, c.id < store.drawn
  ids : (store.charges.map Charge.id).Nodup
  accrued : ∀ c ∈ store.charges,
    Accrued c.outstandingPaise c.rateBps c.interestPaise c.days c.periodFrom c.periodTo
  apart : ∀ c ∈ store.charges, ∀ c' ∈ store.charges, c.Stands store.invoices →
    c'.Stands store.invoices → c.salesInvoiceId = c'.salesInvoiceId → c.id ≠ c'.id →
    c.periodTo ≤ c'.periodFrom ∨ c'.periodTo ≤ c.periodFrom

theorem Books.fewer {after : Store} (h : Books store) (hfewer : Fewer store after) :
    Books after := by
  refine ⟨?_, h.ids.sublist hfewer.ids, ?_, ?_⟩
  · intro c hc
    obtain ⟨c', hc', hsame, -⟩ := hfewer.kept c hc
    rw [hfewer.drawn, hsame]
    exact h.drawn c' hc'
  · intro c hc
    obtain ⟨c', hc', hsame, -⟩ := hfewer.kept c hc
    rw [hsame]
    exact h.accrued c' hc'
  · intro c hc d hd hcs hds hon hne
    obtain ⟨c', hc', hcsame, hcstands⟩ := hfewer.kept c hc
    obtain ⟨d', hd', hdsame, hdstands⟩ := hfewer.kept d hd
    have hstood := hcstands hcs
    have hstood' := hdstands hds
    rw [hcsame, hdsame] at hon hne ⊢
    exact h.apart c' hc' d' hd' hstood hstood' hon hne

theorem Due.fewer {asOf : Day} {doc : Chargeable} {after : Store} (h : Due asOf store doc)
    (hfewer : Fewer store after) : Due asOf after doc := by
  refine ⟨h.upTo, h.accrued, fun c hc hstands hon => ?_⟩
  obtain ⟨c', hc', hsame, hstood⟩ := hfewer.kept c hc
  rw [hsame] at hon ⊢
  exact h.ahead c' hc' (hstood hstands) hon

/-- What a call has still to claim. -/
def Phase.pending : Phase → List Chargeable
  | .drafting groups => groups.flatten
  | .releasing _ group groups => group ++ groups.flatten
  | .clearing _ _ group groups => group ++ groups.flatten
  | .withdrawing _ groups => groups.flatten
  | _ => []

/-- What a call is about to claim. -/
def Phase.claiming : Phase → List Chargeable
  | .clearing _ [] group _ => group
  | _ => []

/-- What the other doors and the ids drawn leave alone: a draft that was dropped stays dropped. -/
def Faithful (store : Store) : Reply → Prop
  | .made row => ∀ c ∈ store.charges, c.interestInvoiceId ≠ some row.id
  | .booked invoices _ => ∀ c ∈ store.charges, c.Stands invoices → c.Stands store.invoices
  | _ => True

instance (store : Store) : (reply : Reply) → Decidable (Faithful store reply)
  | .made row =>
    inferInstanceAs (Decidable (∀ c ∈ store.charges, c.interestInvoiceId ≠ some row.id))
  | .booked invoices _ =>
    inferInstanceAs (Decidable (∀ c ∈ store.charges, c.Stands invoices → c.Stands store.invoices))
  | .done => isTrue trivial
  | .refused => isTrue trivial
  | .lost => isTrue trivial

/-- What is claimed for a draft. -/
theorem claim_eq {draftId : String} {group : List Chargeable} {claimed : Store}
    (h : claim store draftId group = some claimed) :
    claimed = { store with
      charges := store.charges ++ (group.zipIdx store.drawn).map fun p => claimOf draftId p.2 p.1
      drawn := store.drawn + group.length } ∧ (claimed.charges.map Charge.key).Nodup := by
  unfold claim at h
  dsimp only at h
  split at h
  · rename_i hnodup
    obtain rfl := Option.some.inj h
    exact ⟨rfl, hnodup⟩
  · cases h

/-- A claim made is of a document in the group, and no key of the charges is held twice. -/
theorem mem_claims {draftId : String} {group : List Chargeable} {n : ℕ} {c : Charge}
    (h : c ∈ (group.zipIdx n).map fun p => claimOf draftId p.2 p.1) :
    ∃ doc ∈ group, ∃ id, n ≤ id ∧ id < n + group.length ∧ c = claimOf draftId id doc := by
  obtain ⟨⟨doc, id⟩, hmem, rfl⟩ := List.mem_map.mp h
  have hid := List.mem_zipIdx hmem
  exact ⟨doc, hid.2.2 ▸ List.getElem_mem _, id, hid.1, by omega, rfl⟩

/-- Two claims that end on one day hold one key where they are on one invoice. -/
theorem same_of_key {charges : List Charge} (h : (charges.map Charge.key).Nodup) {c c' : Charge}
    (hc : c ∈ charges) (hc' : c' ∈ charges) (hon : c.salesInvoiceId = c'.salesInvoiceId)
    (hto : c.periodTo = c'.periodTo) : c = c' :=
  List.inj_on_of_nodup_map h hc hc' (by rw [Charge.key, Charge.key, hon, hto])

theorem Books.claimed {asOf : Day} {draftId : String} {group : List Chargeable} {claimed : Store}
    (h : Books store) (hdue : ∀ doc ∈ group, Due asOf store doc)
    (hclaim : claim store draftId group = some claimed) : Books claimed := by
  obtain ⟨rfl, hkeys⟩ := claim_eq hclaim
  have hfresh : ∀ c ∈ (group.zipIdx store.drawn).map fun p => claimOf draftId p.2 p.1,
      ∃ doc ∈ group, c.id < store.drawn + group.length ∧ store.drawn ≤ c.id ∧
        c = claimOf draftId c.id doc := by
    intro c hc
    obtain ⟨doc, hdoc, id, hge, hlt, rfl⟩ := mem_claims hc
    exact ⟨doc, hdoc, hlt, hge, rfl⟩
  -- what stood on the invoice of a new claim ends where the claim's days begin
  have hahead : ∀ c ∈ store.charges, ∀ doc ∈ group, ∀ id,
      claimOf draftId id doc ∈ (group.zipIdx store.drawn).map (fun p => claimOf draftId p.2 p.1) →
      c.Stands store.invoices → c.salesInvoiceId = doc.invoice.id →
        c.periodTo ≤ doc.periodFrom := by
    intro c hc doc hdoc id hnew hstands hon
    rcases (hdue doc hdoc).ahead c hc hstands hon with hle | heq
    · exact hle
    · have hid : c.id = id := congrArg Charge.id (same_of_key hkeys (List.mem_append_left _ hc)
        (List.mem_append_right _ hnew) hon (heq.trans (hdue doc hdoc).upTo.symm))
      have hold := h.drawn c hc
      obtain ⟨_, _, _, hge, -⟩ := hfresh _ hnew
      exact absurd hge (by simpa [claimOf, ← hid] using hold)
  refine ⟨?_, ?_, ?_, ?_⟩
  · intro c hc
    rcases List.mem_append.mp hc with hold | hnew
    · exact (h.drawn c hold).trans_le (Nat.le_add_right _ _)
    · obtain ⟨_, _, hlt, -⟩ := hfresh c hnew
      exact hlt
  · have hids : ((group.zipIdx store.drawn).map fun p => claimOf draftId p.2 p.1).map Charge.id =
        List.range' store.drawn group.length := by
      rw [List.map_map, ← List.zipIdx_map_snd]
      rfl
    rw [List.map_append, hids, List.nodup_append]
    refine ⟨h.ids, List.nodup_range', fun a ha b hb hab => ?_⟩
    obtain ⟨c, hc, rfl⟩ := List.mem_map.mp ha
    have hge := (List.mem_range'_1.mp hb).1
    have hlt := h.drawn c hc
    omega
  · intro c hc
    rcases List.mem_append.mp hc with hold | hnew
    · exact h.accrued c hold
    · obtain ⟨doc, hdoc, _, _, heq⟩ := hfresh c hnew
      rw [heq]
      exact (hdue doc hdoc).accrued
  · intro c hc c' hc' hstands hstands' hon hne
    rcases List.mem_append.mp hc with hold | hnew <;>
      rcases List.mem_append.mp hc' with hold' | hnew'
    · exact h.apart c hold c' hold' hstands hstands' hon hne
    · obtain ⟨doc, hdoc, _, _, heq⟩ := hfresh c' hnew'
      rw [heq] at hnew' hon ⊢
      exact .inl (hahead c hold doc hdoc _ hnew' hstands hon)
    · obtain ⟨doc, hdoc, _, _, heq⟩ := hfresh c hnew
      rw [heq] at hnew hon ⊢
      exact .inr (hahead c' hold' doc hdoc _ hnew hstands' hon.symm)
    · -- the claims of one draft end on one day, so they are on different invoices
      obtain ⟨doc, hdoc, _, _, heq⟩ := hfresh c hnew
      obtain ⟨doc', hdoc', _, _, heq'⟩ := hfresh c' hnew'
      have hto : c.periodTo = c'.periodTo := by
        rw [heq, heq']
        exact (hdue doc hdoc).upTo.trans (hdue doc' hdoc').upTo.symm
      exact absurd (congrArg Charge.id (same_of_key hkeys hc hc' hon hto)) hne

/-- A document of a call stays due when claims are made by the call itself, by one as at the same
date, or on other invoices. -/
theorem Due.claimed {asOf at' : Day} {draftId : String} {group : List Chargeable} {claimed : Store}
    {doc : Chargeable} (h : Due asOf store doc) (hdue : ∀ d ∈ group, d.periodTo = at')
    (hclaim : claim store draftId group = some claimed)
    (hdates : ∀ d ∈ group, d.invoice.id = doc.invoice.id → at' = asOf) : Due asOf claimed doc := by
  obtain ⟨rfl, -⟩ := claim_eq hclaim
  refine ⟨h.upTo, h.accrued, fun c hc hstands hon => ?_⟩
  rcases List.mem_append.mp hc with hold | hnew
  · exact h.ahead c hold hstands hon
  · obtain ⟨d, hd, id, -, -, rfl⟩ := mem_claims hnew
    exact .inr ((hdue d hd).trans (hdates d hd hon))

variable {ι : Type*} [DecidableEq ι] {callers : ι → Option Request}

/-- Calls that overlap and have an invoice in common are as at one date, and the rest of the books
is faithful. -/
def Orderly (callers : ι → Option Request) (w : World ι Store Phase) (i : ι) (reply : Reply) :
    Prop :=
  Faithful w.store reply ∧
    ∀ doc ∈ (w.phase i).claiming, ∀ j, ∀ doc' ∈ (w.phase j).pending,
      doc.invoice.id = doc'.invoice.id →
        (callers i).map Request.asOf = (callers j).map Request.asOf

/-- What a call has still to claim is due. -/
def Working (callers : ι → Option Request) (i : ι) (store : Store) (phase : Phase) : Prop :=
  ∀ request, callers i = some request → ∀ doc ∈ phase.pending, Due request.asOf store doc

instance [Fintype ι] (w : World ι Store Phase) (i : ι) (reply : Reply) :
    Decidable (Orderly callers w i reply) :=
  inferInstanceAs (Decidable (_ ∧ _))

structure Kept (callers : ι → Option Request) (w : World ι Store Phase) : Prop where
  books : Books w.store
  due : ∀ i, Working callers i w.store (w.phase i)

/-- The books before any draft of interest is made, and no call begun. -/
def start (invoices : List Invoice) (terms : String → Terms) : World ι Store Phase :=
  ⟨⟨invoices, [], terms, 0⟩, fun _ => .asking⟩

end Caflow.Receivables.InterestDrafts
