import Caflow.Reporting.Roots

set_option linter.all false

namespace Caflow.Reporting
open Accounting (JournalLine totalDebit totalCredit netOn)
open Tally

namespace LedgerSnapshot

variable {s : LedgerSnapshot} {e : JournalEntry}

/-- Where nothing is split, or over nothing, no leg gets a share. -/
theorem shares_none (h : (legs.map Prod.snd).sum ≤ 0 ∨ amount ≤ 0) : shares amount legs = [] := by
  refine List.filter_eq_nil_iff.mpr fun p hp => ?_
  have hzero := (List.of_mem_zip hp).2
  rw [apportion] at hzero
  dsimp only at hzero
  rw [if_pos h] at hzero
  obtain ⟨_, -, hw⟩ := List.mem_map.mp hzero
  simp [← hw]

@[simp] theorem shares_nothing (legs : List (String × ℤ)) : shares 0 legs = [] :=
  shares_none (.inr le_rfl)

theorem shares_unresolvable (h : ¬ Resolvable legs) : shares amount legs = [] := by
  have hsum : (legs.map Prod.snd).sum ≤ 0 := by
    by_cases hlegs : legs = []
    · simp [hlegs]
    · exact not_lt.mp fun hpos => h ⟨hlegs, hpos⟩
  exact shares_none (.inl hsum)

theorem shares_account (h : p ∈ shares amount legs) : p.1 ∈ legs.map Prod.fst :=
  (List.of_mem_zip (List.mem_filter.mp h).1).1

theorem sum_nonzero (shares : List (String × ℤ)) :
    ((shares.filter fun p => p.2 ≠ 0).map Prod.snd).sum = (shares.map Prod.snd).sum := by
  induction shares with
  | nil => rfl
  | cons p shares ih =>
    by_cases h : p.2 = 0
    · simp [h] at ih ⊢
      exact ih
    · simp [h] at ih ⊢
      exact ih

/-- An amount is split to the last paisa. -/
theorem shares_sum (hlegs : Resolvable legs) (hamount : 0 ≤ amount) :
    ((shares amount legs).map Prod.snd).sum = amount := by
  rw [shares, sum_nonzero, List.map_snd_zip (by simp), apportion_sum hamount hlegs.2]

theorem grouped_account {pairs : List (String × ℤ)} (h : p ∈ grouped pairs) :
    ∃ q ∈ pairs, q.1 = p.1 := by
  rw [grouped_eq] at h
  obtain ⟨k, hk, rfl⟩ := List.mem_map.mp h
  exact mem_first_keys.mp hk

theorem credit_note_account (h : p ∈ s.creditNoteDebits invoiceId) : ¬ s.accounts.isAr p.1 := by
  obtain ⟨cn, -, hp⟩ := List.mem_flatMap.mp h
  split at hp
  · simp at hp
  · split at hp
    · simp at hp
    · obtain ⟨l, hl, rfl⟩ := List.mem_map.mp hp
      simp only [List.mem_filter, decide_eq_true_eq] at hl
      exact hl.2.1

/-- An invoice is split over no receivable account. -/
theorem invoice_distribution_account (h : p ∈ s.invoiceDistribution invoiceId) :
    ¬ s.accounts.isAr p.1 := by
  unfold invoiceDistribution at h
  split at h
  · simp at h
  · obtain ⟨q, hq, hsame⟩ := grouped_account (List.mem_filter.mp h).1
    rw [← hsame]
    rcases List.mem_append.mp hq with hq | hq
    · obtain ⟨l, hl, rfl⟩ := List.mem_map.mp hq
      simp only [List.mem_filter, decide_eq_true_eq] at hl
      exact hl.2.1
    · exact credit_note_account hq

theorem bill_distribution_account (h : p ∈ s.billDistribution billId) : ¬ s.accounts.isAp p.1 := by
  unfold billDistribution at h
  split at h
  · simp at h
  · obtain ⟨q, hq, hsame⟩ := grouped_account (List.mem_filter.mp h).1
    rw [← hsame]
    obtain ⟨l, hl, rfl⟩ := List.mem_map.mp hq
    simp only [List.mem_filter, decide_eq_true_eq] at hl
    exact hl.2.1

/-- What a receipt's allocations to invoices that can take money come to. -/
def resolvedPaise (s : LedgerSnapshot) (allocations : List ReceiptAllocation) : ℤ :=
  ((allocations.filter fun a => Resolvable (s.invoiceDistribution a.salesInvoiceId)).map
    fun a => (a.allocatedPaise : ℤ)).sum

/-- What an allocation gets of the money cleared once those before it have theirs. -/
def takenPaise (s : LedgerSnapshot) (cleared : ℤ) (before : List ReceiptAllocation)
    (a : ReceiptAllocation) : ℤ :=
  min cleared (s.resolvedPaise before + a.allocatedPaise) - min cleared (s.resolvedPaise before)

theorem resolved_nonneg (s : LedgerSnapshot) (allocations : List ReceiptAllocation) :
    0 ≤ s.resolvedPaise allocations := by
  refine List.sum_nonneg fun x hx => ?_
  obtain ⟨a, -, rfl⟩ := List.mem_map.mp hx
  exact Int.natCast_nonneg _

theorem resolved_cons (s : LedgerSnapshot) (a : ReceiptAllocation)
    (allocations : List ReceiptAllocation) :
    s.resolvedPaise (a :: allocations) =
      (if Resolvable (s.invoiceDistribution a.salesInvoiceId) then (a.allocatedPaise : ℤ) else 0) +
        s.resolvedPaise allocations := by
  unfold resolvedPaise
  by_cases h : Resolvable (s.invoiceDistribution a.salesInvoiceId) <;> simp [h]

/-- The walk recognises what the allocations ask for, up to the money cleared. -/
theorem collect_recognised (s : LedgerSnapshot) (cleared : ℤ)
    (allocations : List ReceiptAllocation) (taken : ℤ) :
    (s.collect cleared (min cleared taken) allocations).2 =
      min cleared (taken + s.resolvedPaise allocations) := by
  induction allocations generalizing taken with
  | nil => simp [collect, resolvedPaise]
  | cons a allocations ih =>
    have := s.resolved_nonneg (a :: allocations)
    rw [collect]
    by_cases hdone : cleared ≤ min cleared taken
    · rw [if_pos hdone]
      dsimp only
      omega
    · rw [if_neg hdone, resolved_cons]
      dsimp only
      by_cases hlegs : Resolvable (s.invoiceDistribution a.salesInvoiceId)
      · have hnext : min cleared taken + min (a.allocatedPaise : ℤ) (cleared - min cleared taken) =
            min cleared (taken + a.allocatedPaise) := by omega
        rw [if_pos hlegs, if_pos hlegs, hnext, ih, add_assoc]
      · rw [if_neg hlegs, if_neg hlegs, ih, zero_add]

/-- What the walk gives out is what it recognises. -/
theorem collect_sum (s : LedgerSnapshot) (cleared : ℤ)
    (allocations : List ReceiptAllocation) (recognised : ℤ) :
    ((s.collect cleared recognised allocations).1.map Prod.snd).sum =
      (s.collect cleared recognised allocations).2 - recognised := by
  induction allocations generalizing recognised with
  | nil => simp [collect]
  | cons a allocations ih =>
    rw [collect]
    by_cases hdone : cleared ≤ recognised
    · simp [hdone]
    · rw [if_neg hdone]
      dsimp only
      by_cases hlegs : Resolvable (s.invoiceDistribution a.salesInvoiceId)
      · have hamount : 0 ≤ min (a.allocatedPaise : ℤ) (cleared - recognised) := by omega
        rw [if_pos hlegs, List.map_append, List.sum_append, shares_sum hlegs hamount, ih]
        ring
      · rw [if_neg hlegs, ih]

/-- Each allocation has its invoice credited with what it gets. -/
theorem mem_collect (s : LedgerSnapshot) (cleared : ℤ) (allocations : List ReceiptAllocation)
    (taken : ℤ) (p : String × ℤ) :
    p ∈ (s.collect cleared (min cleared taken) allocations).1 ↔
      ∃ before a after, allocations = before ++ a :: after ∧
        p ∈ shares (min cleared (taken + s.resolvedPaise before + a.allocatedPaise) -
          min cleared (taken + s.resolvedPaise before)) (s.invoiceDistribution a.salesInvoiceId) := by
  induction allocations generalizing taken with
  | nil => simp [collect]
  | cons a allocations ih =>
    have hsplit : (∃ before b after, a :: allocations = before ++ b :: after ∧
        p ∈ shares (min cleared (taken + s.resolvedPaise before + b.allocatedPaise) -
          min cleared (taken + s.resolvedPaise before)) (s.invoiceDistribution b.salesInvoiceId)) ↔
        p ∈ shares (min cleared (taken + a.allocatedPaise) - min cleared taken)
          (s.invoiceDistribution a.salesInvoiceId) ∨
        ∃ before b after, allocations = before ++ b :: after ∧
          p ∈ shares (min cleared (taken + s.resolvedPaise (a :: before) + b.allocatedPaise) -
            min cleared (taken + s.resolvedPaise (a :: before)))
            (s.invoiceDistribution b.salesInvoiceId) := by
      constructor
      · rintro ⟨before, b, after, hlist, hp⟩
        cases before with
        | nil =>
          obtain ⟨rfl, -⟩ := List.cons.inj hlist
          exact .inl (by simpa [resolvedPaise] using hp)
        | cons c before =>
          obtain ⟨rfl, hrest⟩ := List.cons.inj hlist
          exact .inr ⟨before, b, after, hrest, hp⟩
      · rintro (hp | ⟨before, b, after, rfl, hp⟩)
        · exact ⟨[], a, allocations, rfl, by simpa [resolvedPaise] using hp⟩
        · exact ⟨a :: before, b, after, rfl, hp⟩
    rw [hsplit, collect]
    by_cases hdone : cleared ≤ min cleared taken
    · -- nothing is left to give: every later share is of nothing
      rw [if_pos hdone]
      refine iff_of_false (List.not_mem_nil) ?_
      rintro (hp | ⟨before, b, after, -, hp⟩)
      · have hzero : min cleared (taken + a.allocatedPaise) - min cleared taken = 0 := by omega
        simp [hzero] at hp
      · have := s.resolved_nonneg (a :: before)
        have hzero : min cleared (taken + s.resolvedPaise (a :: before) + b.allocatedPaise) -
            min cleared (taken + s.resolvedPaise (a :: before)) = 0 := by omega
        simp [hzero] at hp
    · rw [if_neg hdone]
      dsimp only
      by_cases hlegs : Resolvable (s.invoiceDistribution a.salesInvoiceId)
      · have hnext : min cleared taken + min (a.allocatedPaise : ℤ) (cleared - min cleared taken) =
            min cleared (taken + a.allocatedPaise) := by omega
        have hgot : min (a.allocatedPaise : ℤ) (cleared - min cleared taken) =
            min cleared (taken + a.allocatedPaise) - min cleared taken := by omega
        rw [if_pos hlegs, hnext, List.mem_append, ih, hgot]
        simp only [resolved_cons, if_pos hlegs, add_assoc]
      · rw [if_neg hlegs, ih, shares_unresolvable hlegs]
        simp only [resolved_cons, if_neg hlegs, zero_add, List.not_mem_nil, false_or]

/-- The receivable is on the credit side of the receipt and no payable is on it; no invoice it
settles gives a payable account a share; and if its invoices leave some of the money, there is an
advance account outside the control accounts. -/
structure ReceiptClears (s : LedgerSnapshot) (receipt : Receipt) (e : JournalEntry) : Prop where
  cleared : 0 ≤ s.arNet e.lines
  noPayable : ∀ l ∈ e.lines, s.accounts.isAp l.account → s.accounts.isAr l.account
  shared : ∀ before a after, s.allocationsByReceipt receipt.id = before ++ a :: after →
    ∀ p ∈ shares (s.takenPaise (s.arNet e.lines) before a) (s.invoiceDistribution a.salesInvoiceId),
      ¬ s.accounts.isAp p.1
  advance : s.resolvedPaise (s.allocationsByReceipt receipt.id) < s.arNet e.lines →
    ¬ s.accounts.isControl s.accounts.advanceCustomer

/-- The same of a payment, its payable and its bill. -/
structure PaymentClears (s : LedgerSnapshot) (payment : Payment) (e : JournalEntry) : Prop where
  cleared : 0 ≤ s.apNet e.lines
  noReceivable : ∀ l ∈ e.lines, s.accounts.isAr l.account → s.accounts.isAp l.account
  shared : ∀ billId, given payment.purchaseBillId = some billId →
    ∀ p ∈ shares (s.apNet e.lines) (s.billDistribution billId), ¬ s.accounts.isAr p.1
  advance : 0 < s.apNet e.lines →
    (∀ billId, given payment.purchaseBillId = some billId →
      ¬ Resolvable (s.billDistribution billId)) →
    ¬ s.accounts.isControl s.accounts.advanceVendor

/-- What the control accounts leave over has an advance account to go to. -/
structure DirectClears (s : LedgerSnapshot) (e : JournalEntry) : Prop where
  customer : s.arNet e.lines ≠ 0 → ¬ s.accounts.isControl s.accounts.advanceCustomer
  vendor : s.passthroughApNet e.lines ≠ 0 → ¬ s.accounts.isControl s.accounts.advanceVendor

def Clears (s : LedgerSnapshot) (e : JournalEntry) : Prop :=
  match s.role e with
  | .receipt receipt => s.ReceiptClears receipt e
  | .payment payment => s.PaymentClears payment e
  | .document => True
  | .direct => s.DirectClears e

/-- Lines that balance with none on a control account. -/
def Clean (s : LedgerSnapshot) (lines : List ProjectedLine) : Prop :=
  imbalance lines = 0 ∧ ∀ l ∈ lines, ¬ s.accounts.isControl l.account

theorem imbalance_ar (lines : List JournalLine) :
    imbalance (lines.filter fun l => s.accounts.isAr l.account) = -s.arNet lines := by
  unfold imbalance arNet
  induction lines.filter fun l => s.accounts.isAr l.account with
  | nil => rfl
  | cons l lines ih =>
    simp only [List.map_cons, List.sum_cons, ih]
    ring

theorem imbalance_credits (given : List (String × ℤ)) :
    imbalance (given.map fun p => ⟨p.1, 0, p.2⟩) = -(given.map Prod.snd).sum := by
  induction given with
  | nil => rfl
  | cons p given ih =>
    simp only [List.map_cons, List.sum_cons, imbalance_cons, ih]
    ring

theorem imbalance_debits (given : List (String × ℤ)) :
    imbalance (given.map fun p => ⟨p.1, p.2, 0⟩) = (given.map Prod.snd).sum := by
  induction given with
  | nil => rfl
  | cons p given ih =>
    simp only [List.map_cons, List.sum_cons, imbalance_cons, ih]
    ring

/-- Without its receivables a balanced entry is out by what they came to. -/
theorem kept_of_receipt (hbalanced : imbalance e.lines = 0) :
    imbalance (e.lines.filter fun l => ¬ s.accounts.isAr l.account) = s.arNet e.lines := by
  have hsplit := imbalance_filter (fun l => s.accounts.isAr l.account) e.lines
  rw [imbalance_ar, hbalanced] at hsplit
  omega

theorem kept_of_payment (hbalanced : imbalance e.lines = 0) :
    imbalance (e.lines.filter fun l => ¬ s.accounts.isAp l.account) = -s.apNet e.lines := by
  have hsplit := imbalance_filter (fun l => s.accounts.isAp l.account) e.lines
  rw [hbalanced] at hsplit
  exact eq_neg_of_add_eq_zero_right hsplit

theorem advance_clear (remaining : ℤ) (line : ProjectedLine) :
    (∀ l ∈ (if 0 < remaining then [line] else []), ¬ s.accounts.isControl l.account) ↔
      (0 < remaining → ¬ s.accounts.isControl line.account) := by
  split <;> simp_all

/-- The walk credits no control account exactly where no invoice gives a payable one a share. -/
theorem collected_clear (s : LedgerSnapshot) (allocations : List ReceiptAllocation)
    (hcleared : 0 ≤ cleared) :
    (∀ l ∈ (s.collect cleared 0 allocations).1.map fun p => (⟨p.1, 0, p.2⟩ : ProjectedLine),
      ¬ s.accounts.isControl l.account) ↔
      ∀ before a after, allocations = before ++ a :: after →
        ∀ p ∈ shares (s.takenPaise cleared before a) (s.invoiceDistribution a.salesInvoiceId),
          ¬ s.accounts.isAp p.1 := by
  have hmem := mem_collect s cleared allocations 0
  simp only [min_eq_right hcleared, zero_add] at hmem
  constructor
  · intro h before a after hlist p hp hap
    exact h _ (List.mem_map_of_mem ((hmem p).mpr ⟨before, a, after, hlist, hp⟩)) (.inr hap)
  · intro h l hl hcontrol
    obtain ⟨p, hp, rfl⟩ := List.mem_map.mp hl
    obtain ⟨before, a, after, hlist, hshare⟩ := (hmem p).mp hp
    rcases hcontrol with har | hap
    · obtain ⟨leg, hleg, hsame⟩ := List.mem_map.mp (shares_account hshare)
      exact invoice_distribution_account hleg (hsame ▸ har)
    · exact h before a after hlist p hshare hap

theorem receipt_clean_iff {receipt : Receipt} (hbalanced : imbalance e.lines = 0) :
    s.Clean (s.projectReceipt receipt e 1) ↔ s.ReceiptClears receipt e := by
  have hkept := kept_of_receipt (s := s) hbalanced
  have hpayable : (∀ l ∈ e.lines.filter fun l => ¬ s.accounts.isAr l.account,
      ¬ s.accounts.isControl l.account) ↔
      ∀ l ∈ e.lines, s.accounts.isAp l.account → s.accounts.isAr l.account := by
    simp only [List.mem_filter, Chart.isControl, decide_eq_true_eq]
    grind
  have hresolved := s.resolved_nonneg (s.allocationsByReceipt receipt.id)
  unfold projectReceipt
  dsimp only
  by_cases hnone : s.arNet e.lines ≤ 0
  · -- the lines without the receivables are all there is
    rw [if_pos hnone, signed_one, List.map_id, Clean, hkept, hpayable]
    constructor
    · rintro ⟨hzero, hlines⟩
      refine ⟨hzero.ge, hlines, fun before a after hlist p hp => ?_, fun hless => by omega⟩
      have hbefore := s.resolved_nonneg before
      have htaken : s.takenPaise (s.arNet e.lines) before a = 0 := by
        unfold takenPaise
        omega
      simp [htaken] at hp
    · rintro ⟨hcleared, hlines, -, -⟩
      exact ⟨by omega, hlines⟩
  · have hcleared : 0 ≤ s.arNet e.lines := by omega
    have hrecognised := s.collect_recognised (s.arNet e.lines)
      (s.allocationsByReceipt receipt.id) 0
    have hsum := s.collect_sum (s.arNet e.lines) (s.allocationsByReceipt receipt.id) 0
    have hincome := s.collected_clear (s.allocationsByReceipt receipt.id) hcleared
    simp only [min_eq_right hcleared, zero_add] at hrecognised
    set collected := s.collect (s.arNet e.lines) 0 (s.allocationsByReceipt receipt.id)
    have hbalance : imbalance ((e.lines.filter fun l => ¬ s.accounts.isAr l.account) ++
        collected.1.map (fun p => (⟨p.1, 0, p.2⟩ : ProjectedLine)) ++
        if 0 < s.arNet e.lines - collected.2
        then [⟨s.accounts.advanceCustomer, 0, s.arNet e.lines - collected.2⟩] else []) = 0 := by
      rw [imbalance_append, imbalance_append, hkept, imbalance_credits, hsum]
      split
      · simp only [imbalance_cons, imbalance_nil]
        ring
      · rw [imbalance_nil]
        omega
    rw [if_neg hnone, signed_one, List.map_id, Clean, and_iff_right hbalance]
    simp only [List.forall_mem_append]
    rw [hpayable, hincome, advance_clear]
    constructor
    · rintro ⟨⟨hlines, hshared⟩, hadvance⟩
      exact ⟨hcleared, hlines, hshared, fun hless => hadvance (by omega)⟩
    · rintro ⟨-, hlines, hshared, hadvance⟩
      exact ⟨⟨hlines, hshared⟩, fun hless => hadvance (by omega)⟩

theorem settled_clear (s : LedgerSnapshot) (cleared : ℤ) (payment : Payment) :
    (∀ l ∈ (s.settleBill cleared payment).1.map fun p => (⟨p.1, p.2, 0⟩ : ProjectedLine),
      ¬ s.accounts.isControl l.account) ↔
      ∀ billId, given payment.purchaseBillId = some billId →
        ∀ p ∈ shares cleared (s.billDistribution billId), ¬ s.accounts.isAr p.1 := by
  unfold settleBill
  cases given payment.purchaseBillId with
  | none => simp
  | some billId =>
    dsimp only
    by_cases hlegs : Resolvable (s.billDistribution billId)
    · rw [if_pos hlegs]
      constructor
      · intro h _ hbill p hp har
        obtain rfl := Option.some.inj hbill
        exact h _ (List.mem_map_of_mem hp) (.inl har)
      · intro h l hl hcontrol
        obtain ⟨p, hp, rfl⟩ := List.mem_map.mp hl
        rcases hcontrol with har | hap
        · exact h billId rfl p hp har
        · obtain ⟨leg, hleg, hsame⟩ := List.mem_map.mp (shares_account hp)
          exact bill_distribution_account hleg (hsame ▸ hap)
    · rw [if_neg hlegs]
      simp [shares_unresolvable hlegs]

/-- A payment is recognised in full through its bill, or not at all. -/
theorem settled_paise (s : LedgerSnapshot) (cleared : ℤ) (payment : Payment) :
    (s.settleBill cleared payment).2 =
      if ∀ billId, given payment.purchaseBillId = some billId →
        ¬ Resolvable (s.billDistribution billId) then 0 else cleared := by
  unfold settleBill
  cases given payment.purchaseBillId with
  | none => simp
  | some billId => by_cases hlegs : Resolvable (s.billDistribution billId) <;> simp [hlegs]

theorem settled_sum (s : LedgerSnapshot) (payment : Payment) (hcleared : 0 ≤ cleared) :
    ((s.settleBill cleared payment).1.map Prod.snd).sum = (s.settleBill cleared payment).2 := by
  unfold settleBill
  cases given payment.purchaseBillId with
  | none => simp
  | some billId =>
    by_cases hlegs : Resolvable (s.billDistribution billId)
    · simpa [hlegs] using shares_sum hlegs hcleared
    · simp [hlegs]

theorem payment_clean_iff {payment : Payment} (hbalanced : imbalance e.lines = 0) :
    s.Clean (s.projectPayment payment e 1) ↔ s.PaymentClears payment e := by
  have hkept := kept_of_payment (s := s) hbalanced
  have hreceivable : (∀ l ∈ e.lines.filter fun l => ¬ s.accounts.isAp l.account,
      ¬ s.accounts.isControl l.account) ↔
      ∀ l ∈ e.lines, s.accounts.isAr l.account → s.accounts.isAp l.account := by
    simp only [List.mem_filter, Chart.isControl, decide_eq_true_eq]
    grind
  unfold projectPayment
  dsimp only
  by_cases hnone : s.apNet e.lines ≤ 0
  · rw [if_pos hnone, signed_one, List.map_id, Clean, hkept, hreceivable]
    constructor
    · rintro ⟨hzero, hlines⟩
      have hnothing : s.apNet e.lines = 0 := by omega
      refine ⟨hnothing.ge, hlines, fun billId _ p hp => ?_, fun hless => by omega⟩
      simp [hnothing] at hp
    · rintro ⟨hcleared, hlines, -, -⟩
      exact ⟨by omega, hlines⟩
  · have hcleared : 0 ≤ s.apNet e.lines := by omega
    have hpaise := s.settled_paise (s.apNet e.lines) payment
    have hsum := s.settled_sum payment hcleared
    have hexpense := s.settled_clear (s.apNet e.lines) payment
    set settled := s.settleBill (s.apNet e.lines) payment
    have hbalance : imbalance ((e.lines.filter fun l => ¬ s.accounts.isAp l.account) ++
        settled.1.map (fun p => (⟨p.1, p.2, 0⟩ : ProjectedLine)) ++
        if 0 < s.apNet e.lines - settled.2
        then [⟨s.accounts.advanceVendor, s.apNet e.lines - settled.2, 0⟩] else []) = 0 := by
      rw [imbalance_append, imbalance_append, hkept, imbalance_debits, hsum]
      split
      · simp only [imbalance_cons, imbalance_nil]
        ring
      · rw [imbalance_nil]
        split_ifs at hpaise <;> omega
    rw [if_neg hnone, signed_one, List.map_id, Clean, and_iff_right hbalance]
    simp only [List.forall_mem_append]
    rw [hreceivable, hexpense, advance_clear, hpaise]
    constructor
    · rintro ⟨⟨hlines, hshared⟩, hadvance⟩
      refine ⟨hcleared, hlines, hshared, fun hpos hnobill => hadvance ?_⟩
      rw [if_pos hnobill]
      omega
    · rintro ⟨-, hlines, hshared, hadvance⟩
      refine ⟨⟨hlines, hshared⟩, fun hless => ?_⟩
      split_ifs at hless with hnobill
      · exact hadvance (by omega) hnobill
      · omega

theorem kept_of_direct (lines : List JournalLine) :
    imbalance (lines.filter fun l => ¬ s.accounts.isAr l.account ∧ ¬ s.accounts.isAp l.account) =
      imbalance lines + s.arNet lines - s.passthroughApNet lines := by
  induction lines with
  | nil => rfl
  | cons l lines ih =>
    unfold arNet passthroughApNet at ih ⊢
    by_cases har : s.accounts.isAr l.account <;> by_cases hap : s.accounts.isAp l.account <;>
      simp [har, hap] at ih ⊢ <;> omega

/-- An amount that a control account is left with, moved on the side that makes up for it. -/
theorem moved_clear (net : ℤ) (debit credit : ProjectedLine) (h : debit.account = credit.account) :
    (∀ l ∈ (if net = 0 then [] else if 0 < net then [debit] else [credit]),
      ¬ s.accounts.isControl l.account) ↔
      (net ≠ 0 → ¬ s.accounts.isControl credit.account) := by
  by_cases hzero : net = 0
  · simp [hzero]
  · by_cases hpos : 0 < net <;> simp [hzero, hpos, h]

theorem direct_clean_iff (hbalanced : imbalance e.lines = 0) :
    s.Clean (s.passthrough e 1) ↔ s.DirectClears e := by
  have hkept := kept_of_direct (s := s) e.lines
  have hclear : ∀ l ∈ e.lines.filter fun l =>
      ¬ s.accounts.isAr l.account ∧ ¬ s.accounts.isAp l.account,
      ¬ s.accounts.isControl l.account := by
    intro l hl
    have := (List.mem_filter.mp hl).2
    rw [decide_eq_true_eq] at this
    exact not_or.mpr this
  have hcustomer := moved_clear (s := s) (s.arNet e.lines)
    ⟨s.accounts.advanceCustomer, 0, s.arNet e.lines⟩
    ⟨s.accounts.advanceCustomer, -s.arNet e.lines, 0⟩ rfl
  have hvendor := moved_clear (s := s) (s.passthroughApNet e.lines)
    ⟨s.accounts.advanceVendor, s.passthroughApNet e.lines, 0⟩
    ⟨s.accounts.advanceVendor, 0, -s.passthroughApNet e.lines⟩ rfl
  unfold passthrough
  dsimp only
  rw [signed_one, List.map_id, Clean]
  simp only [List.forall_mem_append, imbalance_append, hkept, hbalanced]
  rw [hcustomer, hvendor, and_iff_right hclear]
  have hbalance : 0 + s.arNet e.lines - s.passthroughApNet e.lines +
      imbalance (if s.arNet e.lines = 0 then []
        else if 0 < s.arNet e.lines then [⟨s.accounts.advanceCustomer, 0, s.arNet e.lines⟩]
        else [⟨s.accounts.advanceCustomer, -s.arNet e.lines, 0⟩]) +
      imbalance (if s.passthroughApNet e.lines = 0 then []
        else if 0 < s.passthroughApNet e.lines
          then [⟨s.accounts.advanceVendor, s.passthroughApNet e.lines, 0⟩]
        else [⟨s.accounts.advanceVendor, 0, -s.passthroughApNet e.lines⟩]) = 0 := by
    split_ifs <;> simp only [imbalance_cons, imbalance_nil] <;> omega
  rw [and_iff_right hbalance]
  exact ⟨fun h => ⟨h.1, h.2⟩, fun h => ⟨h.1, h.2⟩⟩

/-- What an entry that goes back to no other projects to is clean exactly where it clears. -/
theorem role_clean_iff (hbalanced : imbalance e.lines = 0) :
    s.Clean (s.projectRole e 1) ↔ s.Clears e := by
  unfold projectRole Clears
  cases s.role e with
  | receipt receipt => exact receipt_clean_iff hbalanced
  | payment payment => exact payment_clean_iff hbalanced
  | document => exact iff_of_true ⟨rfl, by simp⟩ trivial
  | direct => exact direct_clean_iff hbalanced

/-- The sign of a projection is nothing to its balance or its accounts. -/
theorem clean_signed (lines : List ProjectedLine) (sign : ℤ) :
    s.Clean (lines.map (signed sign)) ↔ s.Clean lines := by
  have haccounts : (∀ l ∈ lines.map (signed sign), ¬ s.accounts.isControl l.account) ↔
      ∀ l ∈ lines, ¬ s.accounts.isControl l.account := by simp
  rw [Clean, Clean, haccounts]
  by_cases h : 0 ≤ sign
  · have hsame : signed sign = id := funext fun l => by rw [signed, if_pos h, id]
    rw [hsame, List.map_id]
  · have hswap : signed sign = swap := funext fun l => by rw [signed, if_neg h]
    rw [hswap, imbalance_swap, neg_eq_zero]

/-- The lines on accounts that are neither receivable nor payable. -/
def ordinary (s : LedgerSnapshot) (lines : List JournalLine) : List JournalLine :=
  lines.filter fun l => ¬ s.accounts.isControl l.account

theorem filter_of_imp {p q : JournalLine → Prop} [DecidablePred p] [DecidablePred q]
    (h : ∀ l, p l → q l) (lines : List JournalLine) :
    (lines.filter fun l => p l).Sublist (lines.filter fun l => q l) :=
  List.monotone_filter_right lines fun l hl => by simpa using h l (by simpa using hl)

/-- Nothing but a document loses a line of an ordinary account. -/
theorem role_keeps (h : s.role e ≠ .document) :
    (s.ordinary e.lines).Sublist (s.projectRole e 1) := by
  unfold projectRole
  cases hrole : s.role e with
  | receipt receipt =>
    have hkept : (s.ordinary e.lines).Sublist
        (e.lines.filter fun l => ¬ s.accounts.isAr l.account) :=
      filter_of_imp (fun l hl har => hl (.inl har)) e.lines
    simp only [projectReceipt, signed_one, List.map_id]
    split
    · exact hkept
    · rw [List.append_assoc]
      exact hkept.trans (List.sublist_append_left _ _)
  | payment payment =>
    have hkept : (s.ordinary e.lines).Sublist
        (e.lines.filter fun l => ¬ s.accounts.isAp l.account) :=
      filter_of_imp (fun l hl hap => hl (.inr hap)) e.lines
    simp only [projectPayment, signed_one, List.map_id]
    split
    · exact hkept
    · rw [List.append_assoc]
      exact hkept.trans (List.sublist_append_left _ _)
  | document => exact absurd hrole h
  | direct =>
    have hkept : (s.ordinary e.lines).Sublist (e.lines.filter fun l =>
        ¬ s.accounts.isAr l.account ∧ ¬ s.accounts.isAp l.account) :=
      filter_of_imp (fun l hl => not_or.mp hl) e.lines
    simp only [passthrough, signed_one, List.map_id]
    rw [List.append_assoc]
    exact hkept.trans (List.sublist_append_left _ _)

/-- The entry is, or reverses, an invoice, a bill, a credit note or their stock movement. -/
def FromDocument (s : LedgerSnapshot) (e : JournalEntry) : Prop :=
  ∃ root sign, s.RootOf e root sign ∧ s.role root = .document

def Projects (s : LedgerSnapshot) (e : JournalEntry) (lines : List ProjectedLine) : Prop :=
  ∃ frames, s.projectEntry frames e 1 = some lines

/-- What a cash-basis projection owes a posted entry. -/
structure Sound (s : LedgerSnapshot) (e : JournalEntry) (lines : List ProjectedLine) : Prop where
  balanced : totalDebit lines = totalCredit lines
  clear : ∀ l ∈ lines, ¬ s.accounts.isControl l.account
  kept : ¬ s.FromDocument e → (s.ordinary e.lines).Sublist lines
  undone : ∀ reversal, s.Reverses reversal e →
    ∃ lines', s.Projects reversal lines' ∧ ∀ account, netOn account lines + netOn account lines' = 0

/-- Lines and the same lines with the sign turned leave nothing on any account. -/
theorem net_cancels (lines : List ProjectedLine) (hsign : sign = 1 ∨ sign = -1) (account : String) :
    netOn account (lines.map (signed sign)) + netOn account (lines.map (signed (-sign))) = 0 := by
  rcases hsign with rfl | rfl
  · simp
  · simp

theorem RootOf.keeps (h : s.RootOf e root sign) (hrole : s.role root ≠ .document) :
    (s.ordinary e.lines).Sublist (s.projectRole root sign) := by
  have hfilter := h.lines.filter fun l => ¬ s.accounts.isControl l.account
  rw [List.filter_map] at hfilter
  rw [project_role_signed]
  refine hfilter.trans (List.Sublist.map _ ?_)
  simpa [ordinary, Function.comp_def] using role_keeps hrole

theorem root_clean_iff (he : e ∈ s.entries) (hroot : s.RootOf e root sign) :
    s.Clean (s.projectRole root sign) ↔ s.Clears root := by
  rw [project_role_signed, clean_signed]
  exact role_clean_iff ((balanced_iff _).mp (s.balanced root (hroot.mem he)))

/-- A posted entry is projected soundly exactly if the entry it goes back to clears. -/
theorem projection_sound_iff (s : LedgerSnapshot) (e : JournalEntry) (he : e ∈ s.entries) :
    (∃ lines, s.Projects e lines ∧ s.Sound e lines) ↔
      ∀ root sign, s.RootOf e root sign → s.Clears root := by
  constructor
  · rintro ⟨lines, ⟨frames, hframes⟩, hsound⟩ root sign hroot
    have hlines := hroot.answer hframes
    rw [mul_one] at hlines
    exact (root_clean_iff he hroot).mp (hlines ▸ ⟨(balanced_iff _).mp hsound.balanced, hsound.clear⟩)
  · intro hclears
    obtain ⟨root, sign, hroot⟩ := root_exists he
    obtain ⟨hbalanced, hclear⟩ := (root_clean_iff he hroot).mpr (hclears root sign hroot)
    obtain ⟨depth, hdepth⟩ := hroot.projects 1
    rw [mul_one] at hdepth
    refine ⟨_, ⟨depth, hdepth depth le_rfl⟩, (balanced_iff _).mpr hbalanced, hclear, ?_, ?_⟩
    · exact fun hdocument => hroot.keeps fun hrole => hdocument ⟨root, sign, hroot, hrole⟩
    · intro reversal hreversal
      obtain ⟨depth', hdepth'⟩ := (RootOf.reversal hreversal hroot).projects 1
      refine ⟨_, ⟨depth', hdepth' depth' le_rfl⟩, fun account => ?_⟩
      rw [mul_one, project_role_signed, project_role_signed root (-sign)]
      exact net_cancels _ hroot.plus_or_minus account

def shopChart : Chart where
  values := [⟨"bank", "1001", "HDFC Bank", "Asset", none, some "bank", none⟩,
    ⟨"debtors", "1100", "Trade Receivables", "Asset", none, some "ar", none⟩,
    ⟨"sales", "4001", "Sales", "Revenue", none, none, none⟩,
    ⟨"gst", "2100", "GST Output", "Liability", none, some "gst_output", none⟩]
  keyed := by decide

def firstApril : IsoDate.Date := .of 2026 4 1

def invoiceEntry : JournalEntry :=
  ⟨"e-inv", firstApril, "Sales", [⟨"debtors", 1180, 0⟩, ⟨"sales", 0, 1000⟩, ⟨"gst", 0, 180⟩], none,
    none, none, none, some "sales_invoice", some "inv"⟩

def receiptEntry : JournalEntry :=
  ⟨"e-rec", firstApril, "Receipt", [⟨"bank", 590, 0⟩, ⟨"debtors", 0, 590⟩], none, none, none, none,
    none, none⟩

/-- Half of an invoice received. -/
def halfPaid : LedgerSnapshot where
  accounts := shopChart
  entries := [invoiceEntry, receiptEntry]
  entriesInRange := [invoiceEntry, receiptEntry]
  invoices := [⟨"inv", some "e-inv"⟩]
  receipts := [⟨"rec", some "e-rec"⟩]
  allocations := [⟨"rec", "inv", 590⟩]
  creditNotes := []
  bills := []
  payments := []
  keyed := by decide
  inRange := fun _ he => he
  balanced := by decide
  postedAs := fun _ => 0
  reversalLater := by decide
  reversalSwaps := by decide

theorem half_paid_sound : receiptEntry ∈ halfPaid.entries ∧
    ∃ lines, halfPaid.Projects receiptEntry lines ∧ halfPaid.Sound receiptEntry lines := by
  refine ⟨by decide, (projection_sound_iff halfPaid receiptEntry (by decide)).mpr ?_⟩
  intro root sign hroot
  have hown : halfPaid.RootOf receiptEntry receiptEntry 1 := .own rfl
  obtain ⟨rfl, rfl⟩ := hown.unique hroot
  have hrole : halfPaid.role receiptEntry = .receipt ⟨"rec", some "e-rec"⟩ := rfl
  rw [Clears, hrole]
  refine ⟨by decide +kernel, by decide +kernel, fun before a after hlist => ?_, by decide +kernel⟩
  have hone : halfPaid.allocationsByReceipt "rec" = [⟨"rec", "inv", 590⟩] := by decide +kernel
  obtain ⟨rfl, ⟨rfl, -⟩⟩ : before = [] ∧ a = ⟨"rec", "inv", 590⟩ ∧ after = [] := by
    rw [hone] at hlist
    cases before with
    | nil => simpa [eq_comm] using hlist
    | cons b before => simp at hlist
  decide +kernel

/-- Money given back to a customer: the receipt's entry debits the receivable. -/
def refundEntry : JournalEntry :=
  ⟨"e-ref", firstApril, "Receipt", [⟨"debtors", 590, 0⟩, ⟨"bank", 0, 590⟩], none, none, none, none,
    none, none⟩

def refunded : LedgerSnapshot where
  accounts := shopChart
  entries := [refundEntry]
  entriesInRange := [refundEntry]
  invoices := []
  receipts := [⟨"ref", some "e-ref"⟩]
  allocations := []
  creditNotes := []
  bills := []
  payments := []
  keyed := by decide
  inRange := fun _ he => he
  balanced := by decide
  postedAs := fun _ => 0
  reversalLater := by decide
  reversalSwaps := by decide

/-- Only the bank side of the refund is left: the projection is out by all of it. -/
theorem refund_unbalanced : refundEntry ∈ refunded.entries ∧
    ¬ ∃ lines, refunded.Projects refundEntry lines ∧ refunded.Sound refundEntry lines := by
  refine ⟨by decide, ?_⟩
  rintro ⟨lines, ⟨frames, hframes⟩, hsound⟩
  have hown : refunded.RootOf refundEntry refundEntry 1 := .own rfl
  have hlines : refunded.projectRole refundEntry (1 * 1) = [⟨"bank", 0, 590⟩] := by decide +kernel
  obtain rfl := (hown.answer hframes).trans hlines
  exact absurd hsound.balanced (by decide)

/-- Where every entry in range goes back to one that clears, the whole stream balances and is on no
control account. -/
theorem stream_clean (s : LedgerSnapshot)
    (hclears : ∀ e ∈ s.entriesInRange, ∀ root sign, s.RootOf e root sign → s.Clears root) :
    ∃ frames lines, s.project frames = some lines ∧ s.Clean lines := by
  have hall : ∀ entries : List JournalEntry, (∀ e ∈ entries, e ∈ s.entriesInRange) →
      ∃ depth, ∀ frames, depth ≤ frames →
        ∃ streams, entries.mapM (fun e => s.projectEntry frames e 1) = some streams ∧
          s.Clean streams.flatten := by
    intro entries
    induction entries with
    | nil => exact fun _ => ⟨0, fun _ _ => ⟨[], rfl, rfl, by simp⟩⟩
    | cons e entries ih =>
      intro hmem
      obtain ⟨hfirst, hrest⟩ := List.forall_mem_cons.mp hmem
      have he := s.inRange e hfirst
      obtain ⟨root, sign, hroot⟩ := root_exists he
      obtain ⟨depth, hdepth⟩ := hroot.projects 1
      obtain ⟨depth', hdepth'⟩ := ih hrest
      refine ⟨max depth depth', fun frames hframes => ?_⟩
      obtain ⟨streams, hstreams, hbalanced, hclear⟩ := hdepth' frames (by omega)
      obtain ⟨hbalanced₁, hclear₁⟩ := (root_clean_iff he hroot).mpr (hclears e hfirst root sign hroot)
      refine ⟨s.projectRole root sign :: streams, ?_, ?_, ?_⟩
      · rw [List.mapM_cons, hdepth frames (by omega), hstreams, mul_one]
        rfl
      · rw [List.flatten_cons, imbalance_append, hbalanced, hbalanced₁, add_zero]
      · rw [List.flatten_cons, List.forall_mem_append]
        exact ⟨hclear₁, hclear⟩
  obtain ⟨depth, hdepth⟩ := hall s.entriesInRange fun _ he => he
  obtain ⟨streams, hstreams, hclean⟩ := hdepth depth le_rfl
  exact ⟨depth, streams.flatten, by rw [project, hstreams]; rfl, hclean⟩

end LedgerSnapshot

end Caflow.Reporting
