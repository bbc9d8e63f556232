import Caflow.Lib.Tally
import Caflow.Lib.SortByKey

namespace Caflow.Banking.ReconciliationStatement
open Tally

/-- A journal line on the account, with what its entry says. The columns hold no negative amount. -/
structure BookLine where
  lineId : String
  entryId : String
  entryDate : ℕ
  narration : String
  referenceNo : Option String
  debitPaise : ℕ
  creditPaise : ℕ

/-- A line of the bank's statement, and the entry it points at. -/
structure BankTxn where
  id : String
  transactionDate : ℕ
  description : String
  referenceNo : Option String
  debitPaise : ℕ
  creditPaise : ℕ
  postedJournalId : Option String

inductive Source where
  | book
  | bank

structure BucketItem where
  id : String
  date : ℕ
  referenceNo : Option String
  particulars : String
  amountPaise : ℤ
  source : Source

structure Bucket where
  items : List BucketItem
  totalPaise : ℤ
  count : ℕ
  listed : ℕ

structure Statement where
  asOf : ℕ
  bookBalancePaise : ℤ
  unpresentedCheques : Bucket
  depositsInTransit : Bucket
  bankCreditsNotInBooks : Bucket
  bankDebitsNotInBooks : Bucket
  computedBankBalancePaise : ℤ
  statementBalancePaise : Option ℤ
  differencePaise : Option ℤ
  agrees : Option Bool
  gap : Option String

def listCap : ℕ := 500

/-- A book row is named by its line, not by its entry. -/
def BookLine.item (amount : BookLine → ℕ) (l : BookLine) : BucketItem :=
  ⟨l.lineId, l.entryDate, l.referenceNo, l.narration, amount l, .book⟩

def BankTxn.item (amount : BankTxn → ℕ) (t : BankTxn) : BucketItem :=
  ⟨t.id, t.transactionDate, t.referenceNo, t.description, amount t, .bank⟩

/-- Ordered by date, then id; the total is over all rows, the list is cut. -/
def bucket (rows : List BucketItem) (cap : ℕ) : Bucket :=
  let ordered := rows.insertionSort fun a b => toLex (a.date, a.id) ≤ toLex (b.date, b.id)
  let listed := ordered.take cap
  ⟨listed, (ordered.map BucketItem.amountPaise).sum, ordered.length, listed.length⟩

/-- The two-sided statement from the rows up to a date. -/
def reconcilingItems (bookLines : List BookLine) (bankTxns : List BankTxn) (asOf : ℕ)
    (statementBalancePaise : Option ℤ) (cap : ℕ) : Statement :=
  let seenByBank := bankTxns.filterMap BankTxn.postedJournalId
  let bookBalance := (bookLines.map fun l => (l.debitPaise : ℤ) - l.creditPaise).sum
  let unseen := bookLines.filter (·.entryId ∉ seenByBank)
  let bankOnly := bankTxns.filter (·.postedJournalId = none)
  let unpresented := bucket ((unseen.filter (0 < ·.creditPaise)).map (BookLine.item BookLine.creditPaise)) cap
  let inTransit := bucket ((unseen.filter (0 < ·.debitPaise)).map (BookLine.item BookLine.debitPaise)) cap
  let bankCredits := bucket ((bankOnly.filter (0 < ·.creditPaise)).map (BankTxn.item BankTxn.creditPaise)) cap
  let bankDebits := bucket ((bankOnly.filter (0 < ·.debitPaise)).map (BankTxn.item BankTxn.debitPaise)) cap
  let computed := bookBalance + unpresented.totalPaise - inTransit.totalPaise +
    bankCredits.totalPaise - bankDebits.totalPaise
  { asOf, bookBalancePaise := bookBalance, unpresentedCheques := unpresented,
    depositsInTransit := inTransit, bankCreditsNotInBooks := bankCredits,
    bankDebitsNotInBooks := bankDebits, computedBankBalancePaise := computed,
    statementBalancePaise, differencePaise := statementBalancePaise.map (· - computed),
    agrees := statementBalancePaise.map (· - computed = 0)
    gap := if statementBalancePaise = none then
        some ("The balance the bank states at this date is not known — the statement carries no " ++
          "running balance and none was typed in — so this statement reconciles the books to a " ++
          "figure nothing has confirmed.")
      else none }

/-- A posted entry, as far as it is on the account. -/
structure EntryLine where
  id : String
  narration : String
  debitPaise : ℕ
  creditPaise : ℕ

structure Entry where
  id : String
  entryDate : ℕ
  narration : String
  referenceNo : Option String
  lines : List EntryLine

/-- A line with no narration of its own takes the entry's. -/
def Entry.rows (e : Entry) : List BookLine :=
  e.lines.map fun l => ⟨l.id, e.id, e.entryDate, if l.narration = "" then e.narration else l.narration,
    e.referenceNo, l.debitPaise, l.creditPaise⟩

/-- What an entry does to the account. -/
def Entry.effect (e : Entry) : ℤ := (e.lines.map fun l => (l.debitPaise : ℤ) - l.creditPaise).sum

/-- What a line of the statement does to the account. -/
def BankTxn.movement (t : BankTxn) : ℤ := t.creditPaise - t.debitPaise

/-- All entries and statement lines of an account. -/
structure History where
  entries : List Entry
  bank : List BankTxn
  distinct : (entries.map Entry.id).Nodup
  /-- A posted line points at an entry whose effect is the line's amount. -/
  points : ∀ t ∈ bank, ∀ j ∈ t.postedJournalId, ∃ e ∈ entries, e.id = j ∧ e.effect = t.movement
  /-- No two lines point at one entry. -/
  once : (bank.filterMap BankTxn.postedJournalId).Nodup

def History.entriesTo (h : History) (asOf : ℕ) : List Entry := h.entries.filter (·.entryDate ≤ asOf)

def History.bookLines (h : History) (asOf : ℕ) : List BookLine :=
  (h.entriesTo asOf).flatMap Entry.rows

def History.bankTxns (h : History) (asOf : ℕ) : List BankTxn :=
  h.bank.filter (·.transactionDate ≤ asOf)

/-- The figures of a statement, without its lists. -/
def Statement.totals (s : Statement) : List ℤ × Option ℤ :=
  ([s.bookBalancePaise, s.unpresentedCheques.totalPaise, s.depositsInTransit.totalPaise,
    s.bankCreditsNotInBooks.totalPaise, s.bankDebitsNotInBooks.totalPaise,
    s.computedBankBalancePaise], s.differencePaise)

/-- The statement at a date comes to what the bank's lines up to it come to, from the rows in any
order and with lists of any length. -/
structure History.CompleteAt (h : History) (asOf : ℕ) : Prop where
  computed : ∀ stated cap,
    (reconcilingItems (h.bookLines asOf) (h.bankTxns asOf) asOf stated cap).computedBankBalancePaise =
      ((h.bankTxns asOf).map BankTxn.movement).sum
  anyOrder : ∀ book bank stated cap cap', book.Perm (h.bookLines asOf) → bank.Perm (h.bankTxns asOf) →
    (reconcilingItems book bank asOf stated cap).totals =
      (reconcilingItems (h.bookLines asOf) (h.bankTxns asOf) asOf stated cap').totals

/-- A line that points at an entry of a later date. -/
def History.Ahead (h : History) (asOf : ℕ) (t : BankTxn) : Prop :=
  ∃ e ∈ h.entries, t.postedJournalId = some e.id ∧ asOf < e.entryDate

instance (h : History) (asOf : ℕ) : DecidablePred (h.Ahead asOf) := fun t =>
  inferInstanceAs (Decidable (∃ e ∈ h.entries, t.postedJournalId = some e.id ∧ asOf < e.entryDate))

@[simp] theorem bucket_total (rows : List BucketItem) (cap : ℕ) :
    (bucket rows cap).totalPaise = (rows.map BucketItem.amountPaise).sum :=
  ((List.perm_insertionSort _ rows).map _).sum_eq

/-- Amounts that are nothing do not count, listed or not. -/
theorem positive_sum (amount : α → ℕ) (rows : List α) :
    ((rows.filter (0 < amount ·)).map fun r => (amount r : ℤ)).sum =
      (rows.map fun r => (amount r : ℤ)).sum := by
  rw [sum_filter]
  refine congrArg List.sum (List.map_congr_left fun r _ => ?_)
  split_ifs with hpos
  · rfl
  · simp only [Nat.eq_zero_of_not_pos hpos, Nat.cast_zero]

def BookLine.movement (l : BookLine) : ℤ := l.debitPaise - l.creditPaise

/-- The statement takes the entries the bank has seen from the books, and the lines that point at
none from the bank. -/
theorem computed_eq (book : List BookLine) (bank : List BankTxn) (asOf : ℕ) (stated : Option ℤ)
    (cap : ℕ) : (reconcilingItems book bank asOf stated cap).computedBankBalancePaise =
      ((book.filter (·.entryId ∈ bank.filterMap BankTxn.postedJournalId)).map BookLine.movement).sum +
        ((bank.filter (·.postedJournalId = none)).map BankTxn.movement).sum := by
  have hsplit : (book.map BookLine.movement).sum =
      ((book.filter (·.entryId ∈ bank.filterMap BankTxn.postedJournalId)).map BookLine.movement).sum +
        ((book.filter (·.entryId ∉ bank.filterMap BankTxn.postedJournalId)).map
          BookLine.movement).sum := by
    rw [sum_filter, sum_filter, ← List.sum_map_add]
    refine congrArg List.sum (List.map_congr_left fun l _ => ?_)
    split_ifs <;> simp
  have hbook : ∀ rows : List BookLine, (rows.map BookLine.movement).sum =
      (rows.map fun l => (l.debitPaise : ℤ)).sum - (rows.map fun l => (l.creditPaise : ℤ)).sum :=
    fun rows => sum_sub _ _ _
  have hbank : ∀ rows : List BankTxn, (rows.map BankTxn.movement).sum =
      (rows.map fun t => (t.creditPaise : ℤ)).sum - (rows.map fun t => (t.debitPaise : ℤ)).sum :=
    fun rows => sum_sub _ _ _
  unfold reconcilingItems
  simp only [bucket_total, List.map_map, Function.comp_def, BookLine.item, BankTxn.item]
  change (book.map BookLine.movement).sum + _ - _ + _ - _ = _
  rw [hsplit, positive_sum BookLine.creditPaise, positive_sum BookLine.debitPaise,
    positive_sum BankTxn.creditPaise, positive_sum BankTxn.debitPaise, hbank, hbook (book.filter _)]
  rw [hbook (book.filter _)]
  ring

/-- No figure depends on the order of the rows or on the length of the lists. -/
theorem totals_eq {book book' : List BookLine} {bank bank' : List BankTxn} (hbook : book'.Perm book)
    (hbank : bank'.Perm bank) (asOf : ℕ) (stated : Option ℤ) (cap cap' : ℕ) :
    (reconcilingItems book' bank' asOf stated cap).totals =
      (reconcilingItems book bank asOf stated cap').totals := by
  have hseen : (fun l : BookLine => decide (l.entryId ∉ bank'.filterMap BankTxn.postedJournalId)) =
      fun l => decide (l.entryId ∉ bank.filterMap BankTxn.postedJournalId) := by
    funext l
    rw [decide_eq_decide, (hbank.filterMap _).mem_iff]
  have hunseen : ∀ (p : BookLine → Bool) (f : BookLine → ℤ),
      (((book'.filter (·.entryId ∉ bank'.filterMap BankTxn.postedJournalId)).filter p).map f).sum =
      (((book.filter (·.entryId ∉ bank.filterMap BankTxn.postedJournalId)).filter p).map f).sum := by
    intro p f
    rw [hseen]
    exact (((hbook.filter _).filter p).map f).sum_eq
  have honly : ∀ (p : BankTxn → Bool) (f : BankTxn → ℤ),
      (((bank'.filter (·.postedJournalId = none)).filter p).map f).sum =
      (((bank.filter (·.postedJournalId = none)).filter p).map f).sum :=
    fun p f => (((hbank.filter _).filter p).map f).sum_eq
  have hbalance := (hbook.map fun l : BookLine => (l.debitPaise : ℤ) - l.creditPaise).sum_eq
  simp only [reconcilingItems, Statement.totals, bucket_total, List.map_map, Function.comp_def,
    hbalance, hunseen, honly]

section
variable (h : History) (asOf : ℕ)

theorem mem_entries_to {e : Entry} : e ∈ h.entriesTo asOf ↔ e ∈ h.entries ∧ e.entryDate ≤ asOf := by
  simp [History.entriesTo]

theorem mem_bank_txns {t : BankTxn} : t ∈ h.bankTxns asOf ↔ t ∈ h.bank ∧ t.transactionDate ≤ asOf := by
  simp [History.bankTxns]

theorem entries_to_distinct : ((h.entriesTo asOf).map Entry.id).Nodup :=
  h.distinct.sublist (List.filter_sublist.map Entry.id)

theorem posted_once : ((h.bankTxns asOf).filterMap BankTxn.postedJournalId).Nodup :=
  h.once.sublist (List.filter_sublist.filterMap BankTxn.postedJournalId)

/-- The book rows of the entries the bank has seen come to what those entries do. -/
theorem seen_rows_sum (seen : List String) :
    (((h.bookLines asOf).filter (·.entryId ∈ seen)).map BookLine.movement).sum =
      ((h.entriesTo asOf).map fun e => if e.id ∈ seen then e.effect else 0).sum := by
  unfold History.bookLines
  rw [sum_filter]
  induction h.entriesTo asOf with
  | nil => rfl
  | cons e entries ih =>
    have hentry : (e.rows.map fun l => if l.entryId ∈ seen then l.movement else 0).sum =
        if e.id ∈ seen then e.effect else 0 := by
      unfold Entry.rows Entry.effect
      rw [List.map_map]
      simp only [Function.comp_def, BookLine.movement]
      split_ifs <;> simp
    rw [List.flatMap_cons, List.map_append, List.sum_append, ih, hentry, List.map_cons, List.sum_cons]

/-- One line at most points at an entry. -/
theorem pointing_le_one (j : String) :
    ((h.bankTxns asOf).filter (·.postedJournalId = some j)).length ≤ 1 := by
  have hsub := (List.filter_sublist (l := h.bankTxns asOf)
    (p := fun t => t.postedJournalId = some j)).filterMap BankTxn.postedJournalId
  have hall : ((h.bankTxns asOf).filter (·.postedJournalId = some j)).filterMap
      BankTxn.postedJournalId =
      List.replicate ((h.bankTxns asOf).filter (·.postedJournalId = some j)).length j := by
    generalize hl : (h.bankTxns asOf).filter (·.postedJournalId = some j) = l
    have hmem : ∀ t ∈ l, t.postedJournalId = some j := by
      intro t ht
      rw [← hl] at ht
      exact of_decide_eq_true (List.mem_filter.mp ht).2
    clear hl hsub
    induction l with
    | nil => rfl
    | cons t l ih =>
      obtain ⟨ht, hrest⟩ := List.forall_mem_cons.mp hmem
      rw [List.filterMap_cons_some ht, ih hrest, List.length_cons, List.replicate_succ]
  have hnodup := (posted_once h asOf).sublist hsub
  rw [hall] at hnodup
  exact List.nodup_replicate.mp hnodup

/-- What the bank's lines that point at an entry come to is what the entry does, where there is such
a line. -/
theorem pointing_sum {e : Entry} (he : e ∈ h.entries) :
    (((h.bankTxns asOf).filter (·.postedJournalId = some e.id)).map BankTxn.movement).sum =
      if e.id ∈ (h.bankTxns asOf).filterMap BankTxn.postedJournalId then e.effect else 0 := by
  have hone := pointing_le_one h asOf e.id
  cases hl : (h.bankTxns asOf).filter (·.postedJournalId = some e.id) with
  | nil =>
    rw [if_neg]
    · rfl
    · intro hmem
      obtain ⟨t, ht, hposted⟩ := List.mem_filterMap.mp hmem
      have : t ∈ (h.bankTxns asOf).filter (·.postedJournalId = some e.id) :=
        List.mem_filter.mpr ⟨ht, decide_eq_true hposted⟩
      simp [hl] at this
  | cons t rest =>
    have hnil : rest = [] := by
      rw [hl, List.length_cons] at hone
      exact List.eq_nil_of_length_eq_zero (by omega)
    have hmem : t ∈ (h.bankTxns asOf).filter (·.postedJournalId = some e.id) := by simp [hl]
    obtain ⟨ht, hposted⟩ := List.mem_filter.mp hmem
    have hposted := of_decide_eq_true hposted
    obtain ⟨e', he', hid, heffect⟩ := h.points t ((mem_bank_txns h asOf).mp ht).1 e.id hposted
    obtain rfl : e' = e := List.inj_on_of_nodup_map h.distinct he' he hid
    rw [if_pos (List.mem_filterMap.mpr ⟨t, ht, hposted⟩), hnil, heffect]
    simp

/-- A posted line's entry is dated up to the date, or after it. -/
theorem ahead_iff {t : BankTxn} (ht : t ∈ h.bank) {j : String} (hposted : t.postedJournalId = some j) :
    h.Ahead asOf t ↔ j ∉ (h.entriesTo asOf).map Entry.id := by
  obtain ⟨e, he, rfl, -⟩ := h.points t ht j hposted
  constructor
  · rintro ⟨e', he', hid, hlate⟩ hmem
    obtain ⟨e'', hentry, hsame⟩ := List.mem_map.mp hmem
    obtain ⟨hin, hearly⟩ := (mem_entries_to h asOf).mp hentry
    have hid' : e'.id = e''.id := by
      rw [hsame]
      exact Option.some.inj (hid.symm.trans hposted)
    obtain rfl : e' = e'' := List.inj_on_of_nodup_map h.distinct he' hin hid'
    omega
  · intro hout
    refine ⟨e, he, hposted, ?_⟩
    by_contra hearly
    exact hout (List.mem_map.mpr ⟨e, (mem_entries_to h asOf).mpr ⟨he, by omega⟩, rfl⟩)

/-- Entry by entry up to the date: what the bank has seen of the books is what its lines do that are
posted and not ahead. -/
theorem linked_sum :
    ((h.entriesTo asOf).map fun e =>
      if e.id ∈ (h.bankTxns asOf).filterMap BankTxn.postedJournalId then e.effect else 0).sum =
    ((h.bankTxns asOf).map fun t =>
      if t.postedJournalId.isSome ∧ ¬ h.Ahead asOf t then t.movement else 0).sum := by
  set known := (h.entriesTo asOf).map Entry.id with hknown
  let key : BankTxn → Option String := fun t => t.postedJournalId.filter (· ∈ known)
  have hkey : ∀ t ∈ h.bankTxns asOf, key t = none ↔ ¬ (t.postedJournalId.isSome ∧ ¬ h.Ahead asOf t) := by
    intro t ht
    cases hposted : t.postedJournalId with
    | none => simp [key, hposted]
    | some j =>
      have := ahead_iff h asOf ((mem_bank_txns h asOf).mp ht).1 hposted
      rw [← hknown] at this
      simp [key, hposted, this]
  have hcover : ∀ t ∈ h.bankTxns asOf, ∀ j, key t = some j → j ∈ known :=
    fun t _ j hj => of_decide_eq_true (Option.filter_eq_some_iff.mp hj).2
  have hnone : ∀ t ∈ h.bankTxns asOf, key t = none →
      (if t.postedJournalId.isSome ∧ ¬ h.Ahead asOf t then t.movement else 0) = 0 :=
    fun t ht hkeyless => if_neg ((hkey t ht).mp hkeyless)
  rw [sum_by_key (entries_to_distinct h asOf) key hcover hnone, List.map_map]
  refine congrArg List.sum (List.map_congr_left fun e he => ?_)
  have hin : e.id ∈ known := List.mem_map_of_mem he
  have hfilter : (h.bankTxns asOf).filter (fun t => key t = some e.id) =
      (h.bankTxns asOf).filter (fun t => t.postedJournalId = some e.id) := by
    refine List.filter_congr fun t _ => ?_
    rw [decide_eq_decide]
    simp only [key, Option.filter_eq_some_iff, decide_eq_true_eq]
    exact ⟨fun hboth => hboth.1, fun hposted => ⟨hposted, hin⟩⟩
  have hamount : ∀ t ∈ (h.bankTxns asOf).filter (fun t => key t = some e.id),
      (if t.postedJournalId.isSome ∧ ¬ h.Ahead asOf t then t.movement else 0) = t.movement := by
    intro t ht
    obtain ⟨hmem, hsome⟩ := List.mem_filter.mp ht
    refine if_pos ?_
    by_contra hnot
    rw [(hkey t hmem).mpr hnot] at hsome
    simp at hsome
  rw [Function.comp_apply, List.map_congr_left hamount, hfilter,
    pointing_sum h asOf ((mem_entries_to h asOf).mp he).1]

/-- What the statement leaves out of the bank's lines are those that are ahead of their entries. -/
theorem computed_short (stated : Option ℤ) (cap : ℕ) :
    (reconcilingItems (h.bookLines asOf) (h.bankTxns asOf) asOf stated cap).computedBankBalancePaise +
      (((h.bankTxns asOf).filter (h.Ahead asOf ·)).map BankTxn.movement).sum =
        ((h.bankTxns asOf).map BankTxn.movement).sum := by
  rw [computed_eq, seen_rows_sum, linked_sum, sum_filter (fun t : BankTxn => t.postedJournalId = none),
    sum_filter, ← List.sum_map_add, ← List.sum_map_add]
  refine congrArg List.sum (List.map_congr_left fun t _ => ?_)
  by_cases hahead : h.Ahead asOf t
  · obtain ⟨e, -, hposted, -⟩ := id hahead
    simp [hahead, hposted]
  · cases hposted : t.postedJournalId <;> simp [hahead]

end

/-- The statement is complete at a date exactly where the lines ahead of their entries cancel. -/
theorem complete_iff (h : History) (asOf : ℕ) : h.CompleteAt asOf ↔
    (((h.bankTxns asOf).filter (h.Ahead asOf ·)).map BankTxn.movement).sum = 0 := by
  constructor
  · intro hcomplete
    have hcomputed := hcomplete.computed none listCap
    have hshort := computed_short h asOf none listCap
    omega
  · intro hnone
    constructor
    · intro stated cap
      have hshort := computed_short h asOf stated cap
      omega
    · intro book bank stated cap cap' hbook hbank
      exact totals_eq hbook hbank asOf stated cap cap'

/-- A credit of the first day, entered in the books on the second. -/
def enteredLate : History where
  entries := [⟨"e1", 2, "", none, [⟨"l1", "", 10000, 0⟩]⟩]
  bank := [⟨"t1", 1, "NEFT", none, 0, 10000, some "e1"⟩]
  distinct := List.nodup_singleton _
  points := by
    intro t ht j hj
    obtain rfl := List.mem_singleton.mp ht
    exact ⟨_, List.mem_singleton_self _, Option.some.inj hj, rfl⟩
  once := List.nodup_singleton _

theorem entered_late_incomplete : ¬ enteredLate.CompleteAt 1 := by
  intro h
  have hcomputed := h.computed none listCap
  exact absurd hcomputed (by decide +kernel)

end Caflow.Banking.ReconciliationStatement
