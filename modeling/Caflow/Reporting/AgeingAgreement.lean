import Caflow.Reporting.AgeingSchedule

namespace Caflow.Reporting.AgeingSchedule
open Calendar Dict Tally

/-- The same rows in another order. -/
structure Tables.Reordered (t t' : Tables) : Prop where
  invoices : t'.invoices.Perm t.invoices
  bills : t'.bills.Perm t.bills
  vendors : t'.vendors.Perm t.vendors
  accounts : t'.accounts.Perm t.accounts
  lines : t'.lines.Perm t.lines
  reviews : t'.reviews.Perm t.reviews

/-- One list, but for the order of what has one key. -/
def UpToTies {α κ : Type} (key : α → κ) (l l' : List α) : Prop := l.Perm l' ∧ l.map key = l'.map key

structure AgeingTable.Agrees (a b : AgeingTable) : Prop where
  title : a.title = b.title
  buckets : a.buckets = b.buckets
  rows : a.rows = b.rows
  columnTotals : a.columnTotals = b.columnTotals
  totalPaise : a.totalPaise = b.totalPaise
  unbilledDuesPaise : a.unbilledDuesPaise = b.unbilledDuesPaise
  unbilledAccounts : UpToTies AccountBalance.order a.unbilledAccounts b.unbilledAccounts

structure Schedule.Agrees (a b : Schedule) : Prop where
  asOf : a.asOf = b.asOf
  unbilledReviewedOn : a.unbilledReviewedOn = b.unbilledReviewedOn
  receivables : a.receivables.Agrees b.receivables
  payables : a.payables.Agrees b.payables
  unclassifiedPaise : a.unclassifiedPaise = b.unclassifiedPaise
  unclassifiedVendors : UpToTies VendorBalance.order a.unclassifiedVendors b.unclassifiedVendors
  gaps : a.gaps = b.gaps

section
variable {t t' : Tables} {firm client : String} {asOf today : Day}

theorem sorted_up_to_ties {α κ : Type} [LinearOrder κ] {key : α → κ} {l l' : List α}
    (h : l.Perm l') : UpToTies key (l.insertionSort fun a b => key a ≤ key b)
      (l'.insertionSort fun a b => key a ≤ key b) :=
  ⟨(List.perm_insertionSort _ l).trans (h.trans (List.perm_insertionSort _ l').symm),
    SortByKey.sorted_keys h⟩

/-- What the groups of a row come to is what its buckets do. -/
theorem row_total {buckets : List Bucket} (hbuckets : buckets.Nodup)
    {pairs : List ((RowKey × Bucket) × ℤ)} (hinside : ∀ p ∈ pairs, p.1.2 ∈ buckets) (row : RowKey) :
    (((grouped pairs).filter fun g => g.1.1 = row).map Prod.snd).sum =
      (buckets.map fun b => tally pairs (row, b)).sum := by
  have hgroups := sum_grouped_filter (p := fun k : RowKey × Bucket => decide (k.1 = row)) pairs
  have hnodup : (buckets.map (Prod.mk row)).Nodup :=
    hbuckets.map fun _ _ h => (Prod.mk.inj h).2
  have hcover : ∀ p ∈ pairs.filter (fun x => decide (x.1.1 = row)),
      p.1 ∈ buckets.map (Prod.mk row) := by
    intro p hp
    obtain ⟨hmem, hrow⟩ := List.mem_filter.mp hp
    rw [← of_decide_eq_true hrow]
    exact List.mem_map_of_mem (hinside p hmem)
  rw [hgroups, ← sum_tally hnodup hcover, List.map_map]
  refine congrArg List.sum (List.map_congr_left fun b _ => ?_)
  rw [Function.comp_apply, tally_filter_key (p := fun k : RowKey × Bucket => decide (k.1 = row)),
    if_pos (decide_eq_true rfl)]

theorem table_rows (rows : List (RowKey × String)) {buckets : List (Bucket × String × Bool)}
    (hbuckets : (buckets.map Prod.fst).Nodup) {pairs pairs' : List ((RowKey × Bucket) × ℤ)}
    (hperm : pairs'.Perm pairs) (hinside : ∀ p ∈ pairs, p.1.2 ∈ buckets.map Prod.fst)
    (title : String) (unbilled : Option (List AccountBalance)) :
    (table title rows buckets (grouped pairs) unbilled).rows =
      Sql.tableRows rows (grouped pairs') := by
  have htally (k : RowKey × Bucket) : tally (grouped pairs') k = tally pairs k := by
    rw [tally_grouped, tally_perm hperm]
  have hinside' : ∀ p ∈ pairs', p.1.2 ∈ buckets.map Prod.fst :=
    fun p hp => hinside p (hperm.subset hp)
  unfold table Sql.tableRows
  dsimp only
  refine List.map_congr_left fun r _ => ?_
  have hamounts : (fun b => (get (grouped pairs) (r.1, b)).getD 0) =
      fun b => (((grouped pairs').filter fun g => g.1 = (r.1, b)).map Prod.snd).sum := by
    funext b
    rw [get_grouped]
    exact (htally (r.1, b)).symm
  have htotal : (buckets.map fun b => (get (grouped pairs) (r.1, b.1)).getD 0).sum =
      (((grouped pairs').filter fun g => g.1.1 = r.1).map Prod.snd).sum := by
    rw [row_total hbuckets hinside', List.map_map]
    refine congrArg List.sum (List.map_congr_left fun b _ => ?_)
    rw [get_grouped, Function.comp_apply, tally_perm hperm]
  rw [hamounts, htotal]

theorem first_cutoff (later : ℕ → Bool) (c : ℕ × Bucket) (cutoffs : List (ℕ × Bucket))
    (oldest : Bucket) : (((c :: cutoffs).find? fun c => later c.1).map Prod.snd).getD oldest =
      if later c.1 then c.2
      else ((cutoffs.find? fun c => later c.1).map Prod.snd).getD oldest := by
  rw [List.find?_cons]
  cases later c.1 <;> rfl

theorem bucket_cases (ref asOf : Day) (c : ℕ × Bucket) (cutoffs : List (ℕ × Bucket))
    (oldest undated : Bucket) : bucket (some ref) asOf (c :: cutoffs) oldest undated =
      if asOf < ref then .notDue
      else if minusMonths asOf c.1 < ref then c.2
      else ((cutoffs.find? fun c => minusMonths asOf c.1 < ref).map Prod.snd).getD oldest := by
  have hfirst := first_cutoff (fun months => minusMonths asOf months < ref) c cutoffs oldest
  unfold bucket
  dsimp only
  rw [hfirst]
  simp only [decide_eq_true_eq]

theorem receivable_bucket_cases (ref asOf : Day) :
    receivableBucket (some ref) asOf =
      if asOf < ref then .notDue
      else if minusMonths asOf 6 < ref then .lt6m
      else if minusMonths asOf 12 < ref then .m6y1
      else if minusMonths asOf 24 < ref then .y1y2
      else if minusMonths asOf 36 < ref then .y2y3
      else .gty3 := by
  have hfirst := first_cutoff (fun months => minusMonths asOf months < ref)
  simp only [decide_eq_true_eq] at hfirst
  unfold receivableBucket arCutoffs
  rw [bucket_cases, hfirst, hfirst, hfirst]
  rfl

theorem payable_bucket_cases (ref asOf : Day) :
    payableBucket (some ref) asOf =
      if asOf < ref then .notDue
      else if minusMonths asOf 12 < ref then .lty1
      else if minusMonths asOf 24 < ref then .y1y2
      else if minusMonths asOf 36 < ref then .y2y3
      else .gty3 := by
  have hfirst := first_cutoff (fun months => minusMonths asOf months < ref)
  simp only [decide_eq_true_eq] at hfirst
  unfold payableBucket apCutoffs
  rw [bucket_cases, hfirst, hfirst]
  rfl

theorem or_some {α : Type} (o : Option α) (a : α) : o.or (some a) = some (o.getD a) := by
  cases o <;> rfl

theorem receivable_row_cases (disputed doubtful : Bool) :
    receivableRowKey disputed doubtful =
      if disputed ∧ doubtful then .disputedDoubtful
      else if disputed then .disputedGood
      else if doubtful then .undisputedDoubtful
      else .undisputedGood := by
  cases disputed <;> cases doubtful <;> rfl

theorem payable_row_cases (disputed : Bool) (msme : Option MsmeStatus) :
    payableRowKey disputed msme =
      if msme = none then none
      else if disputed ∧ (msme = some .micro ∨ msme = some .small) then some .disputedMsme
      else if disputed then some .disputedOthers
      else if msme = some .micro ∨ msme = some .small then some .msme
      else some .others := by
  cases msme with
  | none => rfl
  | some status => cases disputed <;> cases status <;> rfl

theorem dead_iff (status : DocStatus) :
    isDead status = true ↔ status = .draft ∨ status = .cancelled :=
  decide_eq_true_iff

/-- The receivables that are read and put in their buckets are the ones the database does. -/
theorem receivables_read (t : Tables) (firm client : String) (asOf : Day) :
    ((fetchReceivables t firm client asOf).filter fun r => 0 < r.outstandingPaise).map (fun r =>
      ((receivableRowKey r.disputed r.doubtful, receivableBucket r.refDate asOf),
        r.outstandingPaise)) = Sql.arB t firm client asOf := by
  unfold fetchReceivables Sql.arB
  rw [List.filterMap_filter, List.filter_filterMap, List.map_filterMap, ← List.filterMap_eq_map,
    List.filterMap_filter]
  refine List.filterMap_congr fun i _ => ?_
  simp only [dead_iff, decide_eq_true_eq]
  by_cases hopen : i.firmId = firm ∧ i.clientId = client ∧ i.deleted = false ∧
    ¬ (i.status = .draft ∨ i.status = .cancelled) ∧ 0 < i.outstandingPaise
  · rw [if_pos hopen]
    obtain ⟨hfirm, hclient, hdeleted, hlive, hdue⟩ := hopen
    by_cases hlater : asOf < i.invoiceDate
    · rw [if_pos hlater, if_neg fun h => (not_le.mpr hlater) h.2.2.2.2.2]
      rfl
    · rw [if_neg hlater, if_pos ⟨hfirm, hclient, hdeleted, hlive, hdue, not_lt.mp hlater⟩]
      simp only [Option.filter_some, hdue, decide_true, if_true, Option.map_some, or_some,
        receivable_bucket_cases, receivable_row_cases]
      rfl
  · rw [if_neg hopen, if_neg fun h => hopen ⟨h.1, h.2.1, h.2.2.1, h.2.2.2.1, h.2.2.2.2.1⟩]
    rfl

theorem left_join_one {α β : Type} {rows : List α} {others : List β} {on : α → β → Bool}
    {f : α → Option β} (hf : ∀ a ∈ rows, others.filter (on a) = (f a).toList) :
    leftJoin rows others on = rows.map fun a => (a, f a) := by
  unfold leftJoin
  induction rows with
  | nil => rfl
  | cons a rows ih =>
    obtain ⟨ha, hrest⟩ := List.forall_mem_cons.mp hf
    rw [List.flatMap_cons, ih hrest, List.map_cons, ha]
    cases f a <;> rfl

/-- The vendors of a client, by their ids. -/
def vendorsOf (t : Tables) (firm client : String) : List (String × Vendor) :=
  fromPairs ((t.vendors.filter fun v => v.firmId = firm ∧ v.clientId = client).map fun v =>
    (v.id, v))

theorem vendors_keyed (t : Tables) (firm client : String) :
    vendorsOf t firm client =
      (t.vendors.filter fun v => v.firmId = firm ∧ v.clientId = client).map fun v => (v.id, v) := by
  refine from_pairs_keyed ?_
  rw [Keyed, List.map_map]
  exact t.vendorKey.sublist (List.filter_sublist.map _)

theorem vendor_joined (t : Tables) (firm client : String) (b : Bill) :
    (t.vendors.filter fun v => v.id = b.vendorId ∧ v.firmId = firm ∧ v.clientId = client) =
      (get (vendorsOf t firm client) b.vendorId).toList := by
  have hfilter : (t.vendors.filter fun v =>
      v.id = b.vendorId ∧ v.firmId = firm ∧ v.clientId = client) =
      (t.vendors.filter fun v => v.firmId = firm ∧ v.clientId = client).filter fun v =>
        v.id = b.vendorId := by
    rw [List.filter_filter]
    refine List.filter_congr fun v _ => ?_
    rw [← Bool.decide_and]
  rw [hfilter, vendors_keyed, get_pairs]
  exact filter_key (t.vendorKey.sublist (List.filter_sublist.map _)) b.vendorId

/-- A payable as the database lays it out. -/
def apRow (asOf : Day) (p : Payable) : Sql.ApRow where
  amt := p.outstandingPaise
  vendorId := p.vendorId
  vendorName := p.vendorName
  rowKey := payableRowKey p.disputed p.msmeStatus
  bucket := payableBucket p.refDate asOf

/-- The payables that are read are the ones the database joins to their vendors. -/
theorem payables_read (t : Tables) (firm client : String) (asOf : Day) :
    (fetchPayables t firm client asOf).map (apRow asOf) = Sql.apB t firm client asOf := by
  have hvendors : fromPairs ((t.vendors.filter fun v => v.firmId = firm ∧
      v.clientId = client).map fun v => (v.id, v)) = vendorsOf t firm client := rfl
  unfold fetchPayables Sql.apB
  rw [left_join_one fun b _ => vendor_joined t firm client b, hvendors]
  dsimp only
  rw [List.filterMap_filter, List.map_filterMap, List.filter_map, List.map_map,
    ← List.filterMap_eq_map, List.filterMap_filter]
  refine List.filterMap_congr fun b _ => ?_
  simp only [dead_iff, decide_eq_true_eq, Function.comp_apply]
  by_cases hopen : b.firmId = firm ∧ b.clientId = client ∧ b.deleted = false ∧
    ¬ (b.status = .draft ∨ b.status = .cancelled) ∧ 0 < b.outstandingPaise
  · rw [if_pos hopen]
    obtain ⟨hfirm, hclient, hdeleted, hlive, hdue⟩ := hopen
    by_cases hlater : asOf < b.billDate
    · rw [if_pos hlater, if_neg fun h => (not_le.mpr hlater) h.2.2.2.2.2]
      rfl
    · rw [if_neg hlater, if_pos ⟨hfirm, hclient, hdeleted, hlive, hdue, not_lt.mp hlater⟩]
      simp only [Option.map_some, apRow, or_some, payable_bucket_cases, payable_row_cases]
  · rw [if_neg hopen, if_neg fun h => hopen ⟨h.1, h.2.1, h.2.2.1, h.2.2.2.1, h.2.2.2.2.1⟩]
    rfl

/-- What an open payable carries: what is due on it, and its vendor's name where it is found. -/
theorem payable_read {p : Payable} (h : p ∈ fetchPayables t firm client asOf) :
    0 < p.outstandingPaise ∧
      p.vendorName = (Dict.get (vendorsOf t firm client) p.vendorId).map Vendor.name := by
  unfold fetchPayables at h
  obtain ⟨b, hb, hp⟩ := List.mem_filterMap.mp h
  have hopen := of_decide_eq_true (List.mem_filter.mp hb).2
  split at hp
  · cases hp
  · rw [← Option.some.inj hp]
    exact ⟨hopen.2.2.2.2, rfl⟩

theorem listed_name {name : Option String} (h : name ≠ some "") :
    listedName name = name.getD "(vendor not found)" := by
  cases name with
  | none => rfl
  | some name =>
    have hname : name ≠ "" := fun heq => h (congrArg some heq)
    unfold listedName
    rw [Option.getD_some, Option.getD_some, if_neg hname]

theorem vendor_named (hnamed : ∀ v ∈ t.vendors, v.name ≠ "") {p : Payable}
    (h : p ∈ fetchPayables t firm client asOf) : p.vendorName ≠ some "" := by
  rw [(payable_read h).2, vendors_keyed, get_pairs]
  intro heq
  obtain ⟨v, hv, hname⟩ := Option.map_eq_some_iff.mp heq
  exact hnamed v (List.mem_of_mem_filter (List.mem_of_find?_eq_some hv)) hname

/-- The payables that a row is found for, each with its row and bucket. -/
def placed (t : Tables) (firm client : String) (asOf : Day) : List ((RowKey × Bucket) × ℤ) :=
  (Sql.apB t firm client asOf).filterMap fun a => a.rowKey.map fun row => ((row, a.bucket), a.amt)

theorem payable_tallies (t : Tables) (firm client : String) (asOf : Day) :
    apTallies (fetchPayables t firm client asOf) asOf = grouped (placed t firm client asOf) := by
  have hdue : (fetchPayables t firm client asOf).filter (fun p => 0 < p.outstandingPaise) =
      fetchPayables t firm client asOf :=
    List.filter_eq_self.mpr fun p hp => decide_eq_true (payable_read hp).1
  unfold apTallies placed
  rw [hdue, ← payables_read, List.filterMap_map]
  rfl

/-- The vendors without a classification are listed with what is open with them. -/
theorem unclassified_read (hnamed : ∀ v ∈ t.vendors, v.name ≠ "") (firm client : String)
    (asOf : Day) :
    (unclassified (fetchPayables t firm client asOf)).map
        (fun u => VendorBalance.mk u.1.1 u.1.2 u.2) =
      Sql.unclassified (Sql.apB t firm client asOf) := by
  let missing := (fetchPayables t firm client asOf).filter fun p =>
    payableRowKey p.disputed p.msmeStatus = none
  let pairs := missing.map fun p => ((p.vendorId, p.vendorName), p.outstandingPaise)
  let listed (k : String × Option String) : String × String := (k.1, listedName k.2)
  have hread : ∀ g ∈ pairs, ∃ p ∈ fetchPayables t firm client asOf,
      g.1 = (p.vendorId, p.vendorName) := by
    intro g hg
    obtain ⟨p, hp, rfl⟩ := List.mem_map.mp hg
    exact ⟨p, List.mem_of_mem_filter hp, rfl⟩
  have hpy : unclassified (fetchPayables t firm client asOf) =
      grouped (pairs.map fun g => (listed g.1, g.2)) := by
    unfold unclassified
    rw [List.map_map]
    have hfilter : ((fetchPayables t firm client asOf).filter fun p => 0 < p.outstandingPaise ∧
        payableRowKey p.disputed p.msmeStatus = none) = missing := by
      refine List.filter_congr fun p hp => ?_
      rw [decide_eq_decide]
      exact and_iff_right (payable_read hp).1
    rw [hfilter]
    rfl
  have hsql : Sql.unclassified (Sql.apB t firm client asOf) =
      (grouped pairs).map fun g => ⟨g.1.1, g.1.2.getD "(vendor not found)", g.2⟩ := by
    unfold Sql.unclassified
    rw [← payables_read, List.filter_map, List.map_map]
    rfl
  have hone : ∀ g ∈ pairs, ∀ g' ∈ pairs, listed g.1 = listed g'.1 → g.1 = g'.1 := by
    intro g hg g' hg' heq
    obtain ⟨p, hp, hkey⟩ := hread g hg
    obtain ⟨p', hp', hkey'⟩ := hread g' hg'
    have hid : p.vendorId = p'.vendorId := by
      rw [hkey, hkey'] at heq
      exact congrArg Prod.fst heq
    rw [hkey, hkey', (payable_read hp).2, (payable_read hp').2, hid]
  rw [hpy, hsql, grouped_rename listed hone, List.map_map]
  refine List.map_congr_left fun g hg => ?_
  have hkey : g.1 ∈ firstKeys pairs := grouped_keys pairs ▸ List.mem_map_of_mem hg
  obtain ⟨g', hg', hsame⟩ := mem_first_keys.mp hkey
  obtain ⟨p, hp, hnamed'⟩ := hread g' hg'
  have hname : g.1.2 ≠ some "" := by
    rw [← hsame, hnamed']
    exact vendor_named hnamed hp
  rw [Function.comp_apply, ← listed_name hname]

theorem vendors_reordered (h : t.Reordered t') (firm client : String) (id : String) :
    Dict.get (vendorsOf t' firm client) id = Dict.get (vendorsOf t firm client) id := by
  have hkeyed : Keyed (vendorsOf t' firm client) := keyed_from_pairs _
  refine get_perm hkeyed ?_ id
  rw [vendors_keyed, vendors_keyed]
  exact (h.vendors.filter _).map _

theorem payables_reordered (h : t.Reordered t') (firm client : String) (asOf : Day) :
    (Sql.apB t' firm client asOf).Perm (Sql.apB t firm client asOf) := by
  have hvendors := vendors_reordered h firm client
  unfold vendorsOf at hvendors
  rw [← payables_read, ← payables_read]
  unfold fetchPayables
  simp only [hvendors]
  exact ((h.bills.filter _).filterMap _).map _

theorem receivables_reordered (h : t.Reordered t') (firm client : String) (asOf : Day) :
    (Sql.arB t' firm client asOf).Perm (Sql.arB t firm client asOf) :=
  (h.invoices.filter _).map _

/-- What stands on a marked account. -/
def balance (t : Tables) (firm client : String) (asOf : Day) (a : UnbilledAccount) :
    AccountBalance where
  accountId := a.accountId
  accountCode := a.accountCode
  accountName := a.accountName
  balancePaise := ((t.lines.filter fun l => l.accountId = a.accountId ∧ l.firmId = firm ∧
    l.clientId = client ∧ l.isPosted = true ∧ l.deleted = false ∧ l.entryDate ≤ asOf).map fun l =>
      signed a.side l.debitPaise l.creditPaise).sum

theorem balances_read (t : Tables) (firm client : String) (asOf : Day) :
    Sql.unbilledBal t firm client asOf =
      (fetchMarked t firm client).map fun a => (a.side, balance t firm client asOf a) := by
  unfold Sql.unbilledBal fetchMarked
  rw [List.map_filterMap]
  refine List.filterMap_congr fun a _ => ?_
  rw [Option.map_map]
  refine congrArg (fun f => Option.map f a.unbilledDuesSide) (funext fun side => ?_)
  cases side <;> rfl

theorem balances_reordered (h : t.Reordered t') (firm client : String) (asOf : Day) :
    (Sql.unbilledBal t' firm client asOf).Perm (Sql.unbilledBal t firm client asOf) := by
  have hbalance : balance t' firm client asOf = balance t firm client asOf := by
    funext a
    unfold balance
    rw [((h.lines.filter _).map _).sum_eq]
  rw [balances_read, balances_read, hbalance]
  exact ((h.accounts.filter _).filterMap _).map _

theorem marked_keyed (t : Tables) (firm client : String) :
    ((fetchMarked t firm client).map UnbilledAccount.accountId).Nodup := by
  have haccounts := List.pairwise_map.mp t.accountKey
  unfold fetchMarked
  rw [List.Nodup, List.pairwise_map, List.pairwise_filterMap]
  refine (haccounts.filter _).imp fun {a b} hne x hx y hy => ?_
  obtain ⟨_, -, rfl⟩ := Option.map_eq_some_iff.mp hx
  obtain ⟨_, -, rfl⟩ := Option.map_eq_some_iff.mp hy
  exact hne

/-- The marked accounts, by their ids. -/
def markedOf (t : Tables) (firm client : String) : List (String × UnbilledAccount) :=
  fromPairs ((fetchMarked t firm client).map fun a => (a.accountId, a))

theorem marked_of_eq (t : Tables) (firm client : String) :
    markedOf t firm client = (fetchMarked t firm client).map fun a => (a.accountId, a) := by
  refine from_pairs_keyed ?_
  rw [Keyed, List.map_map]
  exact marked_keyed t firm client

theorem account_found {a : UnbilledAccount} (ha : a ∈ fetchMarked t firm client) :
    Dict.get (markedOf t firm client) a.accountId = some a := by
  have hkeyed : Keyed (markedOf t firm client) := keyed_from_pairs _
  rw [get_some hkeyed, marked_of_eq]
  exact List.mem_map_of_mem ha

theorem account_found_id {a : UnbilledAccount} {id : String}
    (h : Dict.get (markedOf t firm client) id = some a) : a.accountId = id := by
  have hmem := mem_of_get h
  rw [marked_of_eq] at hmem
  obtain ⟨b, -, hb⟩ := List.mem_map.mp hmem
  obtain ⟨hid, hab⟩ := Prod.mk.inj hb
  rw [← hab]
  exact hid

/-- What a marked account's lines come to is what the database adds up on it. -/
theorem line_totals {a : UnbilledAccount} (ha : a ∈ fetchMarked t firm client) (asOf : Day) :
    tally ((fetchLines t firm client asOf (fetchMarked t firm client)).filterMap fun l =>
        (Dict.get (markedOf t firm client) l.accountId).bind fun a =>
          if asOf < l.entryDate then none
          else some (a.accountId, signed a.side l.debitPaise l.creditPaise)) a.accountId =
      (balance t firm client asOf a).balancePaise := by
  have hbalance : (balance t firm client asOf a).balancePaise = (t.lines.filterMap fun l =>
      if l.accountId = a.accountId ∧ l.firmId = firm ∧ l.clientId = client ∧ l.isPosted = true ∧
        l.deleted = false ∧ l.entryDate ≤ asOf then some (signed a.side l.debitPaise l.creditPaise)
      else none).sum := by
    unfold balance
    dsimp only
    rw [← List.filterMap_eq_map, List.filterMap_filter]
    simp only [decide_eq_true_eq, Function.comp_apply]
  rw [hbalance]
  unfold tally fetchLines
  rw [List.filterMap_map, List.filterMap_filter, List.filter_filterMap, List.map_filterMap]
  refine congrArg List.sum (List.filterMap_congr fun l _ => ?_)
  simp only [decide_eq_true_eq, Function.comp_apply]
  by_cases hacc : l.accountId = a.accountId
  · have hmarked : l.accountId ∈ (fetchMarked t firm client).map (·.accountId) :=
      hacc ▸ List.mem_map_of_mem ha
    by_cases hread : l.firmId = firm ∧ l.clientId = client ∧ l.isPosted = true ∧
      l.deleted = false ∧ l.entryDate ≤ asOf
    · obtain ⟨hfirm, hclient, hposted, hlive, hdate⟩ := hread
      rw [if_pos ⟨hfirm, hclient, hposted, hlive, hdate, hmarked⟩,
        if_pos ⟨hacc, hfirm, hclient, hposted, hlive, hdate⟩, hacc, account_found ha,
        Option.bind_some, if_neg (not_lt.mpr hdate)]
      simp
    · rw [if_neg fun h => hread ⟨h.1, h.2.1, h.2.2.1, h.2.2.2.1, h.2.2.2.2.1⟩,
        if_neg fun h => hread h.2]
      rfl
  · rw [if_neg (fun h => hacc h.1 : ¬ (l.accountId = a.accountId ∧ _))]
    split
    · cases hget : Dict.get (markedOf t firm client) l.accountId with
      | none => rfl
      | some b =>
        have hb : b.accountId ≠ a.accountId := (account_found_id hget).symm ▸ hacc
        rw [Option.bind_some]
        split
        · rfl
        · rw [Option.filter_some, if_neg (by simpa using hb)]
          rfl
    · rfl

/-- The balances of one side, as they are put together from the lines. -/
theorem composition_read (t : Tables) (firm client : String) (asOf : Day) (side : Side) :
    unbilledComposition (fetchMarked t firm client)
        (fetchLines t firm client asOf (fetchMarked t firm client)) asOf side =
      (((Sql.unbilledBal t firm client asOf).filter fun b => b.1 = side).map
        Prod.snd).insertionSort fun a b => a.order ≤ b.order := by
  have haccounts : (markedOf t firm client).map Prod.snd = fetchMarked t firm client := by
    rw [marked_of_eq, List.map_map]
    exact List.map_id _
  have hby : fromPairs ((fetchMarked t firm client).map fun a => (a.accountId, a)) =
      markedOf t firm client := rfl
  unfold unbilledComposition
  dsimp only
  rw [hby, haccounts, balances_read, List.filter_map, List.map_map]
  refine congrArg (List.insertionSort fun a b : AccountBalance => a.order ≤ b.order) ?_
  refine List.map_congr_left fun a ha => ?_
  rw [get_grouped, line_totals (List.mem_of_mem_filter ha)]
  rfl

theorem compositions_agree (h : t.Reordered t') (firm client : String) (asOf : Day) (side : Side) :
    UpToTies AccountBalance.order
      (unbilledComposition (fetchMarked t firm client)
        (fetchLines t firm client asOf (fetchMarked t firm client)) asOf side)
      ((((Sql.unbilledBal t' firm client asOf).filter fun b => b.1 = side).map
        Prod.snd).insertionSort fun a b => a.order ≤ b.order) := by
  rw [composition_read]
  exact sorted_up_to_ties (((balances_reordered h firm client asOf).symm.filter _).map _)

/-- An account in contra balance is seen on either side of the schedule. -/
theorem contra_seen (h : t.Reordered t') (firm client : String) (asOf : Day) :
    (unbilledComposition (fetchMarked t firm client)
        (fetchLines t firm client asOf (fetchMarked t firm client)) asOf .receivable ++
      unbilledComposition (fetchMarked t firm client)
        (fetchLines t firm client asOf (fetchMarked t firm client)) asOf .payable).any
          (·.balancePaise < 0) =
      (Sql.unbilledBal t' firm client asOf).any (·.2.balancePaise < 0) := by
  have hside (side : Side) (b : AccountBalance) :
      b ∈ unbilledComposition (fetchMarked t firm client)
        (fetchLines t firm client asOf (fetchMarked t firm client)) asOf side ↔
      (side, b) ∈ Sql.unbilledBal t' firm client asOf := by
    rw [(compositions_agree h firm client asOf side).1.mem_iff, List.mem_insertionSort]
    simp
  rw [Bool.eq_iff_iff, List.any_eq_true, List.any_eq_true]
  simp only [List.mem_append, hside]
  constructor
  · rintro ⟨b, hb | hb, hneg⟩
    · exact ⟨(.receivable, b), hb, hneg⟩
    · exact ⟨(.payable, b), hb, hneg⟩
  · rintro ⟨⟨side, b⟩, hb, hneg⟩
    cases side with
    | receivable => exact ⟨b, .inl hb, hneg⟩
    | payable => exact ⟨b, .inr hb, hneg⟩

theorem table_agrees {rows : List (RowKey × String)} {buckets : List (Bucket × String × Bool)}
    (hbuckets : (buckets.map Prod.fst).Nodup) {pairs pairs' : List ((RowKey × Bucket) × ℤ)}
    (hperm : pairs'.Perm pairs) (hinside : ∀ p ∈ pairs, p.1.2 ∈ buckets.map Prod.fst)
    (title : String) (reviewed : Bool) {accounts balances : List AccountBalance}
    (haccounts : UpToTies AccountBalance.order accounts
      (balances.insertionSort fun a b => a.order ≤ b.order)) :
    (table title rows buckets (grouped pairs) (if reviewed then some accounts else none)).Agrees
      (Sql.table title buckets (Sql.tableRows rows (grouped pairs')) reviewed balances) := by
  have hrows := table_rows rows hbuckets hperm hinside title
    (if reviewed then some accounts else none)
  have hsum : (accounts.map AccountBalance.balancePaise).sum =
      (balances.map AccountBalance.balancePaise).sum :=
    ((haccounts.1.trans (List.perm_insertionSort _ balances)).map _).sum_eq
  refine ⟨rfl, rfl, hrows, ?_, ?_, ?_, ?_⟩
  · exact congrArg (fun l : List AgeingRow => fun b => (l.map fun r => r.amounts b).sum) hrows
  · exact congrArg (fun l : List AgeingRow => (l.map AgeingRow.totalPaise).sum) hrows
  · cases reviewed with
    | true => exact congrArg some hsum
    | false => rfl
  · cases reviewed with
    | true => exact haccounts
    | false => exact ⟨.nil, rfl⟩

theorem review_found (h : t.Reordered t') (firm client : String) :
    (t'.reviews.find? fun r => r.firmId = firm ∧ r.clientId = client).map Review.reviewedOn =
      fetchReview t firm client := by
  have hkeyed := found_reordered h.reviews t.reviewKey (firm, client)
  simp only [Prod.mk.injEq] at hkeyed
  unfold fetchReview
  rw [hkeyed]

theorem receivable_inside (t : Tables) (firm client : String) (asOf : Day) :
    ∀ p ∈ Sql.arB t firm client asOf, p.1.2 ∈ receivableBuckets.map Prod.fst := by
  intro p hp
  obtain ⟨i, -, rfl⟩ := List.mem_map.mp hp
  dsimp only
  split_ifs <;> decide

theorem payable_inside (t : Tables) (firm client : String) (asOf : Day) :
    ∀ p ∈ placed t firm client asOf, p.1.2 ∈ payableBuckets.map Prod.fst := by
  intro p hp
  obtain ⟨a, ha, hrow⟩ := List.mem_filterMap.mp hp
  obtain ⟨row, -, rfl⟩ := Option.map_eq_some_iff.mp hrow
  obtain ⟨j, -, rfl⟩ := List.mem_map.mp ha
  dsimp only
  split_ifs <;> decide

theorem gap_texts : Sql.gapUnbilledNotReviewed = gapUnbilledNotReviewed ∧
    Sql.gapUnbilledWrongSign = gapUnbilledWrongSign ∧ Sql.gapUnclassified = gapUnclassified ∧
    Sql.gapAsAt = gapAsAt :=
  ⟨rfl, rfl, rfl, rfl⟩

/-- The schedule that is drawn row by row and the one the database draws are one schedule, in
whatever order the rows of the tables are read: every figure, total and gap is the same, and so are
the lists beside the tables, but for the order of what is tied on amount and code or name. -/
theorem ageing_halves_agree (h : t.Reordered t') (hnamed : ∀ v ∈ t.vendors, v.name ≠ "")
    (firm client : String) (asOf today : Day) :
    (schedule t firm client asOf today).Agrees
      (Sql.scheduleIiiAgeing t' firm client asOf today) := by
  have hmissing : ((unclassified (fetchPayables t firm client asOf)).map
        fun u => VendorBalance.mk u.1.1 u.1.2 u.2).Perm
      (Sql.unclassified (Sql.apB t' firm client asOf)) := by
    rw [unclassified_read hnamed]
    exact (grouped_of_perm (((payables_reordered h firm client asOf).symm.filter _).map _)).map _
  have hnone : (unclassified (fetchPayables t firm client asOf)).isEmpty =
      (Sql.unclassified (Sql.apB t' firm client asOf)).isEmpty := by
    rw [Bool.eq_iff_iff, List.isEmpty_iff_length_eq_zero, List.isEmpty_iff_length_eq_zero,
      ← hmissing.length_eq, List.length_map]
  have hplaced : (placed t' firm client asOf).Perm (placed t firm client asOf) :=
    (payables_reordered h firm client asOf).filterMap _
  unfold schedule build Sql.scheduleIiiAgeing arTallies
  dsimp only
  rw [receivables_read, payable_tallies, review_found h]
  refine ⟨rfl, rfl, ?_, ?_, ?_, ?_, ?_⟩
  · exact table_agrees (by decide) (receivables_reordered h firm client asOf)
      (receivable_inside t firm client asOf) _ _ (compositions_agree h firm client asOf .receivable)
  · exact table_agrees (by decide) hplaced (payable_inside t firm client asOf) _ _
      (compositions_agree h firm client asOf .payable)
  · have hsum := (hmissing.map VendorBalance.outstandingPaise).sum_eq
    rw [List.map_map] at hsum
    exact hsum
  · exact sorted_up_to_ties hmissing
  · rw [contra_seen h, hnone]
    cases (fetchReview t firm client).isSome <;>
      cases (Sql.unbilledBal t' firm client asOf).any (·.2.balancePaise < 0) <;>
        simp [gap_texts]

/-- The same tables, each read from its other end. -/
def Tables.reversed (t : Tables) : Tables where
  invoices := t.invoices.reverse
  bills := t.bills.reverse
  vendors := t.vendors.reverse
  accounts := t.accounts.reverse
  lines := t.lines.reverse
  reviews := t.reviews.reverse
  vendorKey := List.map_reverse ▸ List.nodup_reverse.mpr t.vendorKey
  accountKey := List.map_reverse ▸ List.nodup_reverse.mpr t.accountKey
  reviewKey := List.map_reverse ▸ List.nodup_reverse.mpr t.reviewKey

theorem reversed_reordered (t : Tables) : t.Reordered t.reversed :=
  ⟨List.reverse_perm _, List.reverse_perm _, List.reverse_perm _, List.reverse_perm _,
    List.reverse_perm _, List.reverse_perm _⟩

/-- Two invoices, a bill of a small vendor and one of a vendor nobody has classified, and an
account of accrued income. -/
def yearEnd : Tables where
  invoices :=
    [⟨"f", "c", false, .issued, .of 2026 1 15, none, 500, false, false⟩,
      ⟨"f", "c", false, .partiallyPaid, .of 2025 6 30, some (.of 2025 7 30), 300, true, true⟩]
  bills :=
    [⟨"f", "c", false, .received, .of 2026 2 1, none, 700, false, "v1"⟩,
      ⟨"f", "c", false, .received, .of 2022 3 31, none, 400, false, "v2"⟩]
  vendors := [⟨"v1", "f", "c", "Anvil Works", some .small⟩, ⟨"v2", "f", "c", "Bolt Traders", none⟩]
  accounts := [⟨"a1", "f", none, "1205", "Accrued income", some .receivable⟩]
  lines := [⟨"a1", "f", "c", true, false, .of 2026 3 1, 250, 0⟩]
  reviews := [⟨"f", "c", .of 2026 3 20⟩]
  vendorKey := by decide
  accountKey := by decide
  reviewKey := by decide

theorem halves_agree_at_year_end :
    (schedule yearEnd "f" "c" (.of 2026 3 31) (.of 2026 4 2)).unclassifiedPaise = 400 ∧
      (schedule yearEnd "f" "c" (.of 2026 3 31) (.of 2026 4 2)).Agrees
        (Sql.scheduleIiiAgeing yearEnd.reversed "f" "c" (.of 2026 3 31) (.of 2026 4 2)) :=
  ⟨by decide, ageing_halves_agree (reversed_reordered yearEnd) (by decide) "f" "c" _ _⟩

/-- The invoices of a client that are open and dated by a day. -/
def openInvoices (t : Tables) (firm client : String) (asOf : Day) : List Invoice :=
  t.invoices.filter fun i => i.firmId = firm ∧ i.clientId = client ∧ i.deleted = false ∧
    ¬ (i.status = .draft ∨ i.status = .cancelled) ∧ 0 < i.outstandingPaise ∧ i.invoiceDate ≤ asOf

def openBills (t : Tables) (firm client : String) (asOf : Day) : List Bill :=
  t.bills.filter fun b => b.firmId = firm ∧ b.clientId = client ∧ b.deleted = false ∧
    ¬ (b.status = .draft ∨ b.status = .cancelled) ∧ 0 < b.outstandingPaise ∧ b.billDate ≤ asOf

/-- A table whose rows and buckets hold all that is posted comes to it both ways. -/
theorem table_foots {rows : List (RowKey × String)} {buckets : List (Bucket × String × Bool)}
    (hrows : (rows.map Prod.fst).Nodup) (hbuckets : (buckets.map Prod.fst).Nodup)
    {pairs : List ((RowKey × Bucket) × ℤ)}
    (hrow : ∀ p ∈ pairs, p.1.1 ∈ rows.map Prod.fst)
    (hbucket : ∀ p ∈ pairs, p.1.2 ∈ buckets.map Prod.fst)
    (title : String) (unbilled : Option (List AccountBalance)) :
    (table title rows buckets (grouped pairs) unbilled).totalPaise = (pairs.map Prod.snd).sum ∧
      (buckets.map fun b =>
        (table title rows buckets (grouped pairs) unbilled).columnTotals b.1).sum =
          (pairs.map Prod.snd).sum := by
  have hacross (row : RowKey) := sum_along hbuckets Prod.snd Prod.fst (Prod.mk row) row
    (fun k b => by rw [Prod.ext_iff]; exact and_comm) hbucket
  have hdown (bucket : Bucket) := sum_along hrows Prod.fst Prod.snd (fun row => (row, bucket))
    bucket (fun k b => Prod.ext_iff) hrow
  have hrowpairs : ∀ p ∈ pairs.map (fun p => (p.1.1, p.2)), p.1 ∈ rows.map Prod.fst :=
    List.forall_mem_map.mpr hrow
  have hbucketpairs : ∀ p ∈ pairs.map (fun p => (p.1.2, p.2)), p.1 ∈ buckets.map Prod.fst :=
    List.forall_mem_map.mpr hbucket
  unfold table
  dsimp only
  simp only [get_grouped, List.map_map]
  constructor
  · have hcells : (rows.map (AgeingRow.totalPaise ∘ fun r => AgeingRow.mk r.1 r.2
        (fun b => tally pairs (r.1, b)) (buckets.map fun b => tally pairs (r.1, b.1)).sum)) =
        (rows.map Prod.fst).map (tally (pairs.map fun p => (p.1.1, p.2))) := by
      rw [List.map_map]
      refine List.map_congr_left fun r _ => ?_
      rw [Function.comp_apply, Function.comp_apply, ← hacross r.1, List.map_map]
      rfl
    rw [hcells, sum_tally hrows hrowpairs, List.map_map]
    rfl
  · have hcells : (buckets.map fun b => (rows.map ((fun r => r.amounts b.1) ∘ fun r => AgeingRow.mk
        r.1 r.2 (fun b => tally pairs (r.1, b))
        (buckets.map fun b => tally pairs (r.1, b.1)).sum)).sum) =
        (buckets.map Prod.fst).map (tally (pairs.map fun p => (p.1.2, p.2))) := by
      rw [List.map_map]
      refine List.map_congr_left fun b _ => ?_
      rw [Function.comp_apply, ← hdown b.1, List.map_map]
      rfl
    rw [hcells, sum_tally hbuckets hbucketpairs, List.map_map]
    rfl

theorem receivable_row_inside (t : Tables) (firm client : String) (asOf : Day) :
    ∀ p ∈ Sql.arB t firm client asOf, p.1.1 ∈ receivableRows.map Prod.fst := by
  intro p hp
  obtain ⟨i, -, rfl⟩ := List.mem_map.mp hp
  dsimp only
  rw [← receivable_row_cases]
  cases i.isDisputed <;> cases i.consideredDoubtful <;> decide

theorem payable_row_inside (t : Tables) (firm client : String) (asOf : Day) :
    ∀ p ∈ placed t firm client asOf, p.1.1 ∈ payableRows.map Prod.fst := by
  intro p hp
  obtain ⟨a, ha, hplaced⟩ := List.mem_filterMap.mp hp
  obtain ⟨row, hrow, rfl⟩ := Option.map_eq_some_iff.mp hplaced
  rw [← payables_read] at ha
  obtain ⟨q, -, rfl⟩ := List.mem_map.mp ha
  obtain ⟨status, -, rfl⟩ := Option.map_eq_some_iff.mp hrow
  dsimp only
  cases q.disputed <;> cases status <;> decide

/-- What the open bills come to is what the payables that are read from them do. -/
theorem payables_sum (t : Tables) (firm client : String) (asOf : Day) :
    ((fetchPayables t firm client asOf).map Payable.outstandingPaise).sum =
      ((openBills t firm client asOf).map Bill.outstandingPaise).sum := by
  have hread := congrArg (List.map Sql.ApRow.amt) (payables_read t firm client asOf)
  unfold Sql.apB at hread
  dsimp only at hread
  rw [left_join_one fun b _ => vendor_joined t firm client b, List.filter_map, List.map_map,
    List.map_map, List.map_map] at hread
  exact congrArg List.sum hread

/-- A payable is placed in the table or its vendor is listed as unclassified. -/
theorem payables_split (payables : List Payable) (asOf : Day) :
    ((apTallies payables asOf).map Prod.snd).sum + ((unclassified payables).map Prod.snd).sum =
      ((payables.filter fun p => 0 < p.outstandingPaise).map Payable.outstandingPaise).sum := by
  unfold apTallies unclassified
  rw [grouped_sum, grouped_sum]
  induction payables with
  | nil => rfl
  | cons p payables ih =>
    by_cases hdue : 0 < p.outstandingPaise
    · cases hrow : payableRowKey p.disputed p.msmeStatus with
      | none => 
        simp [hdue, hrow] at ih ⊢
        linarith
      | some row => 
        simp [hdue, hrow] at ih ⊢
        linarith
    · simpa [hdue] using ih

/-- Both tables come to the same total by their rows and by their columns. The receivables come to
every open invoice, and the payables to every open bill but those of the unclassified vendors, which
are the figure beside them. -/
theorem schedule_foots (t : Tables) (firm client : String) (asOf today : Day) :
    let s := schedule t firm client asOf today
    s.receivables.totalPaise =
        ((openInvoices t firm client asOf).map Invoice.outstandingPaise).sum ∧
      (s.receivables.buckets.map fun b => s.receivables.columnTotals b.1).sum =
        s.receivables.totalPaise ∧
      s.payables.totalPaise + s.unclassifiedPaise =
        ((openBills t firm client asOf).map Bill.outstandingPaise).sum ∧
      (s.payables.buckets.map fun b => s.payables.columnTotals b.1).sum =
        s.payables.totalPaise := by
  have hreceivables := table_foots (by decide) (by decide)
    (receivable_row_inside t firm client asOf) (receivable_inside t firm client asOf)
  have hpayables := table_foots (by decide) (by decide) (payable_row_inside t firm client asOf)
    (payable_inside t firm client asOf)
  have hinvoices : ((Sql.arB t firm client asOf).map Prod.snd).sum =
      ((openInvoices t firm client asOf).map Invoice.outstandingPaise).sum := by
    unfold Sql.arB openInvoices
    rw [List.map_map]
    rfl
  have hdue : (fetchPayables t firm client asOf).filter (fun p => 0 < p.outstandingPaise) =
      fetchPayables t firm client asOf :=
    List.filter_eq_self.mpr fun p hp => decide_eq_true (payable_read hp).1
  have hbills := payables_split (fetchPayables t firm client asOf) asOf
  rw [hdue, payables_sum, payable_tallies, grouped_sum] at hbills
  unfold schedule build arTallies
  rw [receivables_read, payable_tallies]
  exact ⟨(hreceivables _ _).1.trans hinvoices, (hreceivables _ _).2.trans (hreceivables _ _).1.symm,
    (congrArg (· + _) (hpayables _ _).1).trans hbills,
    (hpayables _ _).2.trans (hpayables _ _).1.symm⟩

end

end Caflow.Reporting.AgeingSchedule
