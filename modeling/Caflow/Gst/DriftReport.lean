import Caflow.Gst.ExceptionReport

namespace Caflow.Gst.ExceptionReport
open Gstr1

@[simp] theorem is_zero_iff (amounts : Amounts) : isZero amounts = true ↔ amounts = 0 := by
  constructor
  · intro h
    funext head
    have hhead := List.all_eq_true.mp h head (by cases head <;> simp [heads])
    simpa using hhead
  · rintro rfl
    simp [isZero]

/-- What an entry holds as a credit note. -/
def Entry.credited (e : Entry) : Amounts := if e.creditNote then e.figures else 0

theorem Entry.signed_eq (e : Entry) : e.signed = e.figures - (2 : ℤ) • e.credited := by
  unfold Entry.signed Entry.credited
  split
  · rw [two_zsmul, neg_one_zsmul]
    abel
  · simp

/-- What the documents on one side of the reverse charge declare. -/
def charged (p : Payload) (reverseCharge : Bool) : Amounts :=
  ((listed p).map fun t => if t.2.reverseCharge = reverseCharge then t.2.signed else 0).sum

/-- What a document declares under a sign, on one side of the reverse charge. -/
def declared (side : Bool) (figures : Amounts) (creditNote reverseCharge : Bool) : Amounts :=
  if reverseCharge = side then (if creditNote then -1 else 1 : ℤ) • figures else 0

theorem sum_group_entries (side : Bool) (kind : Kind) (table : Table) (number : Document → String)
    (groups : List Group) :
    ((groupEntries kind table number groups).map fun t =>
      if t.2.reverseCharge = side then t.2.signed else 0).sum =
    ((documentsOf groups).map fun d => declared side d.figures (kind = .note && d.isCreditNote)
      ((table = .b2b || table = .cdnr) && d.isReverseCharge)).sum := by
  induction groups with
  | nil => rfl
  | cons group groups ih =>
    simp only [groupEntries, documentsOf, List.flatMap_cons, List.map_append, List.sum_append]
      at ih ⊢
    rw [ih, List.map_map]
    rfl

theorem bucket_eq (p : Payload) (side : Bool) :
    bucket p side =
      ((groupEntries .invoice .b2b (·.inum) p.b2b).map fun t =>
        if t.2.reverseCharge = side then t.2.signed else 0).sum +
      ((groupEntries .note .cdnr (·.ntNum) p.cdnr).map fun t =>
        if t.2.reverseCharge = side then t.2.signed else 0).sum := by
  rw [bucket, Tally.sum_filter, Tally.sum_filter, sum_group_entries, sum_group_entries]
  simp [declared, Document.noteFigures]

/-- What Table 11 adds: advances received less advances adjusted. -/
def advances (p : Payload) : Amounts := advanceItems p.advances - advanceItems p.txpd

/-- The return's figures are the signed sums of the documents on each side, the B2C rows and the
advances. -/
theorem read_charged (p : Payload) :
    (readGstr1Outward p).heldOutReverseCharge = charged p true ∧
    (readGstr1Outward p).taxableAndZeroRated =
      charged p false + (p.b2cs.map (·.figures)).sum + advances p := by
  have hflat : ∀ side, ((flatEntries p.cdnur).map fun t =>
      if t.2.reverseCharge = side then t.2.signed else 0).sum =
      if side = false then (p.cdnur.map (·.noteFigures)).sum else 0 := by
    intro side
    rw [flatEntries, List.map_map]
    cases side
    · simp [Function.comp_def, Entry.signed, Document.noteFigures]
    · simp [Function.comp_def]
  have hplain : ∀ side table, table ≠ .b2b → table ≠ .cdnr → ∀ groups,
      ((groupEntries .invoice table (·.inum) groups).map fun t =>
        if t.2.reverseCharge = side then t.2.signed else 0).sum =
      if side = false then ((documentsOf groups).map (·.figures)).sum else 0 := by
    intro side table hb hc groups
    rw [sum_group_entries]
    cases side
    · simp [declared, hb, hc]
    · simp [declared, hb, hc]
  have hb2cl := fun side => hplain side .b2cl (by decide) (by decide) p.b2cl
  have hexp := fun side => hplain side .exp (by decide) (by decide) p.exp
  simp only [readGstr1Outward, bucket_eq, charged, listed, List.map_append, List.sum_append,
    hb2cl, hexp, hflat, advances]
  constructor
  · simp
  · simp only [if_true]
    abel

/-- What the comparison leaves unread of a payload: the reverse charge, Table 8, and the documents
another of the same number hides, the credit notes' sign and the advances, which can make up for one
another. -/
@[ext] structure LeftOut where
  heldOut : Amounts
  nilRatedAndExempt : ℤ
  nonGst : ℤ
  rest : Amounts

def leftOut (p : Payload) : LeftOut where
  heldOut := charged p true
  nilRatedAndExempt := (p.nilRows.map fun row => row.nilAmt + row.exptAmt).sum
  nonGst := (p.nilRows.map (·.ngsupAmt)).sum
  rest := ((Dict.superseded (listed p)).map fun t => t.2.figures).sum -
    (2 : ℤ) • ((listed p).map fun t => t.2.credited).sum + advances p

theorem charged_both (p : Payload) :
    charged p true + charged p false =
      ((listed p).map fun t => t.2.figures).sum -
        (2 : ℤ) • ((listed p).map fun t => t.2.credited).sum := by
  unfold charged
  generalize listed p = entries
  induction entries with
  | nil => rfl
  | cons t entries ih =>
    have ht : ((if t.2.reverseCharge = true then t.2.signed else 0) +
        if t.2.reverseCharge = false then t.2.signed else 0) = t.2.signed := by
      cases t.2.reverseCharge <;> simp
    simp only [List.map_cons, List.sum_cons, smul_add]
    rw [add_add_add_comm, ht, ih, Entry.signed_eq]
    abel

/-- What the return declares is what the comparison indexes and what it leaves unread. -/
theorem read_indexed (p : Payload) :
    (readGstr1Outward p).taxableAndZeroRated =
      totals (indexDocuments p) + (p.b2cs.map (·.figures)).sum +
        ((leftOut p).rest - (leftOut p).heldOut) := by
  have hboth := charged_both p
  rw [Dict.sum_from_pairs (listed p) Entry.figures] at hboth
  rw [(read_charged p).2, eq_sub_of_add_eq' hboth]
  simp only [leftOut, totals, indexDocuments]
  abel

theorem sum_add_row (buckets : List (String × Bucket)) (row : B2csRow) :
    ((addRow buckets row).map (·.2.figures)).sum =
      (buckets.map (·.2.figures)).sum + row.figures := by
  have hset := fun bucket : Bucket => Dict.sum_set (b2csKey (rowType row) row.rt row.pos) bucket
    buckets Bucket.figures
  unfold addRow
  cases hget : Dict.get buckets (b2csKey (rowType row) row.rt row.pos) with
  | none =>
    simpa [hget] using hset ⟨rowType row, row.rt, row.pos, 0 + row.figures⟩
  | some bucket =>
    have hsome := hset { bucket with figures := bucket.figures + row.figures }
    simp only [hget, Option.elim] at hsome
    simp only [hget, Option.getD_some]
    rw [← add_right_cancel_iff (a := bucket.figures), hsome]
    abel

theorem rows_keyed (rows : List B2csRow) : Dict.Keyed (rows.foldl addRow []) := by
  induction rows using List.reverseRecOn with
  | nil => exact List.nodup_nil
  | append_singleton rows row ih =>
    rw [List.foldl_append]
    exact ih.set _ _

theorem sum_rows (rows : List B2csRow) :
    ((rows.foldl addRow []).map (·.2.figures)).sum = (rows.map (·.figures)).sum := by
  induction rows using List.reverseRecOn with
  | nil => rfl
  | append_singleton rows row ih =>
    rw [List.foldl_append, List.foldl_cons, List.foldl_nil, sum_add_row, ih, List.map_append,
      List.sum_append, List.map_singleton, List.sum_singleton]

theorem b2cs_keys_nodup (filed books : List (String × Bucket)) :
    (b2csKeys filed books).Nodup :=
  (List.perm_insertionSort _ _).nodup_iff.mpr (List.nodup_dedup _)

theorem mem_b2cs_keys {filed books : List (String × Bucket)} :
    key ∈ b2csKeys filed books ↔ key ∈ filed.map Prod.fst ∨ key ∈ books.map Prod.fst := by
  rw [b2csKeys, (List.perm_insertionSort _ _).mem_iff, List.mem_dedup, List.mem_append]

theorem b2cs_finding_none {filed books : List (String × Bucket)}
    (h : key ∈ b2csKeys filed books) :
    b2csFinding filed books key = none ↔
      bucketFigures filed key = bucketFigures books key := by
  have hshape : (Dict.get books key).or (Dict.get filed key) ≠ none := by
    rw [ne_eq, Option.or_eq_none_iff, Dict.get_none, Dict.get_none, ← not_or, not_not, or_comm]
    exact mem_b2cs_keys.mp h
  have hzero : isZero (bucketFigures books key - bucketFigures filed key) = true ↔
      bucketFigures filed key = bucketFigures books key := by
    rw [is_zero_iff, sub_eq_zero]
    exact eq_comm
  simp only [b2csFinding]
  by_cases hsame : isZero (bucketFigures books key - bucketFigures filed key) = true
  · rw [if_pos hsame]
    exact iff_of_true rfl (hzero.mp hsame)
  · rw [if_neg hsame, Option.map_eq_none_iff]
    exact iff_of_false hshape fun he => hsame (hzero.mpr he)

/-- Two entries the comparison finds nothing between. -/
def Entry.alike (e e' : Entry) : Bool :=
  (e'.table, e'.invTyp) = (e.table, e.invTyp) && isZero (e'.figures - e.figures)

theorem Entry.alike_iff (e e' : Entry) :
    e.alike e' = true ↔ (e.table = e'.table ∧ e.invTyp = e'.invTyp) ∧ e.figures = e'.figures := by
  simp only [Entry.alike, Bool.and_eq_true, decide_eq_true_eq, Prod.mk.injEq, is_zero_iff,
    sub_eq_zero]
  exact and_congr (and_congr eq_comm eq_comm) eq_comm

theorem Entry.alike_comm (e e' : Entry) : e.alike e' = e'.alike e := by
  apply Bool.eq_iff_iff.mpr
  rw [Entry.alike_iff, Entry.alike_iff]
  exact and_congr (and_congr eq_comm eq_comm) eq_comm

/-- A document of one return that the other has not, or has otherwise. -/
def moved (q : Payload) (t : DocKey × Entry) : Bool :=
  !(Dict.get (indexDocuments q) t.1).any t.2.alike

/-- What the credit notes among the documents that moved come to in a return. -/
def movedCredits (p q : Payload) : Amounts :=
  (((indexDocuments p).filter (moved q)).map fun t => t.2.credited).sum

/-- The comparison reads the same documents and the same B2C totals in two returns. -/
def SameIndexed (filed books : Payload) : Prop :=
  (∀ t ∈ indexDocuments filed, moved books t = false) ∧
  (∀ t ∈ indexDocuments books, moved filed t = false) ∧
  ∀ key, bucketFigures (indexB2cs filed) key = bucketFigures (indexB2cs books) key

theorem index_keyed (p : Payload) : Dict.Keyed (indexDocuments p) := Dict.keyed_from_pairs _

/-- Of a return's documents those that moved are the ones the other has not, and of the shared the
ones that are not alike. -/
theorem sum_moved (p q : Payload) (f : Entry → Amounts) :
    (((indexDocuments p).filter (moved q)).map fun t => f t.2).sum =
      ((Dict.without (indexDocuments p) (indexDocuments q)).map fun t => f t.2).sum +
        (((Dict.common (indexDocuments p) (indexDocuments q)).filter
          fun t => !t.2.1.alike t.2.2).map fun t => f t.2.1).sum := by
  unfold moved
  generalize indexDocuments p = d
  generalize indexDocuments q = e
  induction d with
  | nil => simp [Dict.without, Dict.common]
  | cons t d ih =>
    simp only [Dict.without, Dict.common, List.filter_cons, List.filterMap_cons] at ih ⊢
    cases ht : Dict.get e t.1 with
    | none => simp [ih, add_assoc]
    | some w =>
      cases halike : t.2.alike w with
      | true => simpa [ht, halike] using ih
      | false =>
        simp only [halike, Option.any_some, Option.map_some, Option.isNone_some, Bool.not_false,
          List.filter_cons, List.map_cons, List.sum_cons, if_true, ih]
        simp [add_left_comm]

/-- Read from the other side, the shared documents that are not alike are the same ones. -/
theorem common_moved (p q : Payload) (f : Entry → Amounts) :
    (((Dict.common (indexDocuments q) (indexDocuments p)).filter
      fun t => !t.2.1.alike t.2.2).map fun t => f t.2.1).sum =
    (((Dict.common (indexDocuments p) (indexDocuments q)).filter
      fun t => !t.2.1.alike t.2.2).map fun t => f t.2.2).sum := by
  have hswap := Dict.common_swap (index_keyed p) (index_keyed q)
  rw [((hswap.filter fun t => !t.2.1.alike t.2.2).map fun t => f t.2.1).sum_eq, List.filter_map,
    List.map_map]
  simp only [Function.comp_def, Entry.alike_comm]

theorem moved_of_none {q : Payload} {t : DocKey × Entry}
    (h : Dict.get (indexDocuments q) t.1 = none) : moved q t = true := by
  simp [moved, h]

theorem moved_of_some {q : Payload} {t : DocKey × Entry} {e : Entry}
    (h : Dict.get (indexDocuments q) t.1 = some e) : moved q t = !t.2.alike e := by
  simp [moved, h]

theorem without_nil (p q : Payload) :
    Dict.without (indexDocuments p) (indexDocuments q) = [] ↔
      ∀ t ∈ indexDocuments p, Dict.get (indexDocuments q) t.1 ≠ none := by
  simp [Dict.without, List.filter_eq_nil_iff, Option.ne_none_iff_isSome]

/-- A document is alike on both sides where its table has not moved and its figures have not. -/
theorem alike_pair (t : Pair) : t.2.1.alike t.2.2 = (!tableMoved t && isZero (delta t)) := by
  simp [Entry.alike, tableMoved, delta]

/-- The findings on the documents both sides have. -/
theorem common_findings (both : List Pair) :
    (both.filter (tableMoved ·)).length +
        (both.filter fun t => !tableMoved t && !isZero (delta t)).length = 0 ↔
      ∀ t ∈ both, t.2.1.alike t.2.2 = true := by
  simp only [Nat.add_eq_zero_iff, List.length_eq_zero_iff, List.filter_eq_nil_iff]
  constructor
  · rintro ⟨htable, hdelta⟩ t ht
    have hstays : tableMoved t = false := by simpa using htable t ht
    have hzero : isZero (delta t) = true := by simpa [hstays] using hdelta t ht
    rw [alike_pair, hstays, hzero]
    rfl
  · intro h
    have hboth : ∀ t ∈ both, tableMoved t = false ∧ isZero (delta t) = true := fun t ht => by
      simpa [alike_pair] using h t ht
    exact ⟨fun t ht => by simp [(hboth t ht).1], fun t ht => by simp [(hboth t ht).2]⟩

/-- Nothing is found exactly where everything the comparison reads is the same. -/
theorem clean_iff (filed books : Payload) :
    (comparePayloads filed books).clean = true ↔ SameIndexed filed books := by
  have hb2cs : ((b2csKeys (indexB2cs filed) (indexB2cs books)).filterMap
      (b2csFinding (indexB2cs filed) (indexB2cs books))).length = 0 ↔
      ∀ key, bucketFigures (indexB2cs filed) key = bucketFigures (indexB2cs books) key := by
    rw [List.length_eq_zero_iff, List.filterMap_eq_nil_iff]
    constructor
    · intro h key
      by_cases hkey : key ∈ b2csKeys (indexB2cs filed) (indexB2cs books)
      · exact (b2cs_finding_none hkey).mp (h key hkey)
      · rw [mem_b2cs_keys, not_or] at hkey
        rw [bucketFigures, bucketFigures, Dict.get_none.mpr hkey.1, Dict.get_none.mpr hkey.2]
    · exact fun h key hkey => (b2cs_finding_none hkey).mpr (h key)
  have hclean : (comparePayloads filed books).clean = true ↔
      (Dict.without (indexDocuments books) (indexDocuments filed) = [] ∧
        Dict.without (indexDocuments filed) (indexDocuments books) = []) ∧
      (∀ t ∈ Dict.common (indexDocuments filed) (indexDocuments books),
        t.2.1.alike t.2.2 = true) ∧
      ∀ key, bucketFigures (indexB2cs filed) key = bucketFigures (indexB2cs books) key := by
    rw [← hb2cs, ← common_findings]
    simp only [comparePayloads, decide_eq_true_eq, List.length_map]
    rw [← List.length_eq_zero_iff, ← List.length_eq_zero_iff]
    omega
  rw [hclean, without_nil, without_nil]
  constructor
  · rintro ⟨⟨hadded, hremoved⟩, hboth, hrows⟩
    refine ⟨fun t ht => ?_, fun t ht => ?_, hrows⟩
    · obtain ⟨e, he⟩ := Option.ne_none_iff_exists'.mp (hremoved t ht)
      have hpair := (Dict.mem_common (index_keyed filed)).mpr ⟨(Dict.get_some (index_keyed filed)).mpr ht, he⟩
      rw [moved_of_some he, hboth _ hpair, Bool.not_true]
    · obtain ⟨e, he⟩ := Option.ne_none_iff_exists'.mp (hadded t ht)
      have hpair := (Dict.mem_common (index_keyed filed)).mpr ⟨he, (Dict.get_some (index_keyed books)).mpr ht⟩
      rw [moved_of_some he, Entry.alike_comm, hboth _ hpair, Bool.not_true]
  · rintro ⟨hsame, hsame', hrows⟩
    refine ⟨⟨fun t ht hnone => ?_, fun t ht hnone => ?_⟩, fun t ht => ?_, hrows⟩
    · simpa [moved_of_none hnone] using hsame' t ht
    · simpa [moved_of_none hnone] using hsame t ht
    · obtain ⟨hwas, hnow⟩ := (Dict.mem_common (index_keyed filed)).mp ht
      have hmoved := hsame (t.1, t.2.1) ((Dict.get_some (index_keyed filed)).mp hwas)
      rwa [moved_of_some hnow, Bool.not_eq_false'] at hmoved

theorem by_size_perm {α : Type} (amounts : α → Amounts) (text : α → String) (findings : List α) :
    (bySize amounts text findings).Perm findings := List.perm_insertionSort _ _

/-- The buckets that changed, filed, in the books, and between the two. -/
theorem b2cs_changed_sums (filed books : List (String × Bucket)) :
    let changed := (b2csKeys filed books).filterMap (b2csFinding filed books)
    (changed.map (·.books)).sum - (changed.map (·.filed)).sum = (changed.map (·.delta)).sum := by
  intro changed
  have hdelta : ∀ f ∈ changed, f.delta = f.books - f.filed := by
    intro f hf
    obtain ⟨key, -, hkey⟩ := List.mem_filterMap.mp hf
    simp only [b2csFinding] at hkey
    split at hkey
    · cases hkey
    · obtain ⟨shape, -, rfl⟩ := Option.map_eq_some_iff.mp hkey
      rfl
  rw [← Tally.sum_sub]
  apply congrArg
  apply List.map_congr_left
  exact fun f hf => (hdelta f hf).symm

/-- What the findings move the declared figures by: a document that was added adds what it declares,
one that was removed takes it away. -/
def Report.moves (r : Report) : Amounts :=
  (r.missingFromReturn.map (·.signed)).sum - (r.missingFromBooks.map (·.signed)).sum +
    ((r.amountChanged.map (·.moves)).sum + (r.reclassified.map (·.moves)).sum) +
    (r.b2csChanged.map (·.delta)).sum

/-- The shared documents that are not alike are reclassified or changed. -/
theorem sum_common_findings (both : List Pair) (f : Pair → Amounts) :
    ((both.filter fun t => !tableMoved t && !isZero (delta t)).map f).sum +
        ((both.filter (tableMoved ·)).map f).sum =
      ((both.filter fun t => !t.2.1.alike t.2.2).map f).sum := by
  induction both with
  | nil => simp
  | cons t both ih =>
    have halike : (!t.2.1.alike t.2.2) = (tableMoved t || !isZero (delta t)) := by
      unfold Entry.alike tableMoved delta
      rw [Bool.not_and, decide_not]
    simp only [List.filter_cons, halike]
    cases htable : tableMoved t with
    | true => simpa [add_left_comm] using ih
    | false =>
      cases hdelta : isZero (delta t) with
      | true => simpa using ih
      | false => simpa [add_assoc] using ih

/-- What the documents of a return come to that moved against another. -/
def movedSum (f : Entry → Amounts) (p q : Payload) : Amounts :=
  (((indexDocuments p).filter (moved q)).map fun t => f t.2).sum

theorem moves_eq (filed books : Payload) :
    (comparePayloads filed books).moves =
      movedSum Entry.signed books filed - movedSum Entry.signed filed books +
        (((b2csKeys (indexB2cs filed) (indexB2cs books)).filterMap
          (b2csFinding (indexB2cs filed) (indexB2cs books))).map (·.delta)).sum := by
  simp only [Report.moves, comparePayloads, movedSum, sum_moved, common_moved filed books]
  rw [((by_size_perm _ _ _).map _).sum_eq, ((by_size_perm _ _ _).map _).sum_eq,
    ((by_size_perm _ _ _).map _).sum_eq, ((by_size_perm _ _ _).map _).sum_eq,
    ((by_size_perm _ _ _).map _).sum_eq]
  simp only [List.map_map, Function.comp_def, reclassifiedOf, amountChangedOf]
  rw [sum_common_findings, Tally.sum_sub]
  abel

theorem totals_eq (filed books : Payload) :
    (comparePayloads filed books).totals.delta =
      totals (indexDocuments books) - totals (indexDocuments filed) +
        (((b2csKeys (indexB2cs filed) (indexB2cs books)).filterMap
          (b2csFinding (indexB2cs filed) (indexB2cs books))).map (·.delta)).sum := by
  rw [← b2cs_changed_sums]
  simp only [comparePayloads]
  abel

/-- The documents that did not move come to the same in both returns. -/
theorem totals_moved (filed books : Payload) :
    totals (indexDocuments books) - totals (indexDocuments filed) =
      movedSum Entry.figures books filed - movedSum Entry.figures filed books := by
  have hsplit : ∀ p q : Payload, totals (indexDocuments p) = movedSum Entry.figures p q +
      (((Dict.common (indexDocuments p) (indexDocuments q)).filter
        fun t => t.2.1.alike t.2.2).map fun t => t.2.1.figures).sum := by
    intro p q
    rw [totals, movedSum, sum_moved, Dict.sum_without_common _ (indexDocuments q), add_assoc]
    have hperm := List.filter_append_perm (fun t => t.2.1.alike t.2.2)
      (Dict.common (indexDocuments p) (indexDocuments q))
    rw [← (hperm.map fun t => t.2.1.figures).sum_eq, List.map_append, List.sum_append, add_comm
      (List.sum (List.map _ (List.filter _ _)))]
  have halike : (((Dict.common (indexDocuments books) (indexDocuments filed)).filter
        fun t => t.2.1.alike t.2.2).map fun t => t.2.1.figures).sum =
      (((Dict.common (indexDocuments filed) (indexDocuments books)).filter
        fun t => t.2.1.alike t.2.2).map fun t => t.2.1.figures).sum := by
    have hswap := Dict.common_swap (index_keyed filed) (index_keyed books)
    rw [((hswap.filter fun t => t.2.1.alike t.2.2).map fun t => t.2.1.figures).sum_eq,
      List.filter_map, List.map_map]
    simp only [Function.comp_def, Entry.alike_comm]
    apply congrArg
    apply List.map_congr_left
    intro t ht
    exact ((Entry.alike_iff _ _).mp (List.mem_filter.mp ht).2).2.symm
  rw [hsplit books filed, hsplit filed books, halike]
  abel

theorem moved_signed (p q : Payload) :
    movedSum Entry.signed p q = movedSum Entry.figures p q - (2 : ℤ) • movedCredits p q := by
  have hsigned : ∀ l : List (DocKey × Entry), (l.map fun t => t.2.signed).sum =
      (l.map fun t => t.2.figures).sum - (2 : ℤ) • (l.map fun t => t.2.credited).sum := by
    intro l
    simp only [Entry.signed_eq]
    rw [Tally.sum_sub, List.smul_sum, List.map_map]
    rfl
  exact hsigned _

/-- The totals leave the findings' signed sum by twice the credit notes that moved. -/
theorem totals_moves (filed books : Payload) :
    (comparePayloads filed books).totals.delta =
      (comparePayloads filed books).moves +
        (2 : ℤ) • (movedCredits books filed - movedCredits filed books) := by
  rw [totals_eq, moves_eq, totals_moved, moved_signed, moved_signed, smul_sub]
  abel

theorem entry_key {p : Payload} {t : DocKey × Entry} (h : t ∈ indexDocuments p) :
    docKey t.2.kind t.2.docNo = t.1 := by
  have hgroup : ∀ kind table number groups,
      t ∈ groupEntries kind table number groups → docKey t.2.kind t.2.docNo = t.1 := by
    intro kind table number groups ht
    obtain ⟨g, -, hg⟩ := List.mem_flatMap.mp ht
    obtain ⟨d, -, rfl⟩ := List.mem_map.mp hg
    simp [docKey]
  have hlisted := Dict.mem_from_pairs h
  simp only [listed, List.mem_append] at hlisted
  rcases hlisted with (((h | h) | h) | h) | h
  · exact hgroup _ _ _ _ h
  · exact hgroup _ _ _ _ h
  · exact hgroup _ _ _ _ h
  · exact hgroup _ _ _ _ h
  · obtain ⟨d, -, rfl⟩ := List.mem_map.mp h
    simp [docKey]

/-- Every bucket is under its own key. -/
def Named (buckets : List (String × Bucket)) : Prop :=
  Dict.Keyed buckets ∧ ∀ t ∈ buckets, b2csKey t.2.supplyType t.2.rate t.2.placeOfSupply = t.1

theorem rows_named (rows : List B2csRow) : Named (rows.foldl addRow []) := by
  refine ⟨rows_keyed rows, fun t ht => ?_⟩
  induction rows using List.reverseRecOn generalizing t with
  | nil => cases ht
  | append_singleton rows row ih =>
    rw [List.foldl_append, List.foldl_cons, List.foldl_nil] at ht
    rcases Dict.mem_set ht with rfl | ht
    · cases hget : Dict.get (rows.foldl addRow []) (b2csKey (rowType row) row.rt row.pos) with
      | none => rfl
      | some bucket =>
        simp only
        exact ih (_, bucket) ((Dict.get_some (rows_keyed rows)).mp hget)
    · exact ih t ht

/-- The findings of two reports, one with the returns exchanged. Documents are told apart by kind and
number, B2C totals by type, rate and place. -/
structure Exchanged (r s : Report) : Prop where
  added : s.missingFromReturn.map (·.toEntry) = r.missingFromBooks.map (·.toEntry)
  removed : s.missingFromBooks.map (·.toEntry) = r.missingFromReturn.map (·.toEntry)
  changed :
    (s.amountChanged.map fun f => (docKey f.kind f.docNo, f.filed, f.books, f.delta)).Perm
      (r.amountChanged.map fun f => (docKey f.kind f.docNo, f.books, f.filed, -f.delta))
  reclassified :
    (s.reclassified.map fun f => (docKey f.kind f.docNo, (f.filedTable, f.filedInvTyp),
        (f.booksTable, f.booksInvTyp), f.delta)).Perm
      (r.reclassified.map fun f => (docKey f.kind f.docNo, (f.booksTable, f.booksInvTyp),
        (f.filedTable, f.filedInvTyp), -f.delta))
  b2cs :
    (s.b2csChanged.map fun f =>
        (b2csKey f.supplyType f.rate f.placeOfSupply, f.filed, f.books, f.delta)).Perm
      (r.b2csChanged.map fun f =>
        (b2csKey f.supplyType f.rate f.placeOfSupply, f.books, f.filed, -f.delta))
  totals : s.totals = ⟨r.totals.books, r.totals.filed, -r.totals.delta⟩

theorem by_size_map {α β : Type} (g : α → β) (amounts : β → Amounts) (text : β → String)
    (findings : List α) :
    (bySize (amounts <| g ·) (text <| g ·) findings).map g =
      bySize amounts text (findings.map g) :=
  List.map_insertionSort _ _ g findings fun _ _ _ _ => Iff.rfl

theorem table_moved_swap (t : Pair) : tableMoved (t.1, t.2.2, t.2.1) = tableMoved t := by
  simp only [tableMoved, ne_comm]

theorem delta_swap (t : Pair) : delta (t.1, t.2.2, t.2.1) = -delta t := (neg_sub _ _).symm

theorem is_zero_neg (amounts : Amounts) : isZero (-amounts) = isZero amounts := by
  apply Bool.eq_iff_iff.mpr
  rw [is_zero_iff, is_zero_iff, neg_eq_zero]

theorem common_keys {filed books : Payload} {t : Pair}
    (h : t ∈ Dict.common (indexDocuments filed) (indexDocuments books)) :
    docKey t.2.1.kind t.2.1.docNo = t.1 ∧ docKey t.2.2.kind t.2.2.docNo = t.1 := by
  obtain ⟨hwas, hnow⟩ := (Dict.mem_common (index_keyed filed)).mp h
  have hwas' := entry_key ((Dict.get_some (index_keyed filed)).mp hwas)
  have hnow' := entry_key ((Dict.get_some (index_keyed books)).mp hnow)
  exact ⟨hwas', hnow'⟩

/-- The findings on shared documents are found from either side. -/
theorem common_exchanged {X : Type} (filed books : Payload) {keep : Pair → Bool} {f g : Pair → X}
    (hkeep : ∀ t : Pair, keep (t.1, t.2.2, t.2.1) = keep t)
    (hsame : ∀ t ∈ Dict.common (indexDocuments filed) (indexDocuments books),
      f (t.1, t.2.2, t.2.1) = g t) :
    (((Dict.common (indexDocuments books) (indexDocuments filed)).filter keep).map f).Perm
      (((Dict.common (indexDocuments filed) (indexDocuments books)).filter keep).map g) := by
  have hswap := Dict.common_swap (index_keyed filed) (index_keyed books)
  refine ((hswap.filter keep).map f).trans ?_
  rw [List.filter_map, List.map_map]
  simp only [Function.comp_def, hkeep]
  rw [List.map_congr_left fun t ht => hsame t (List.mem_of_mem_filter ht)]

theorem b2cs_keys_comm (filed books : List (String × Bucket)) :
    (b2csKeys books filed).Perm (b2csKeys filed books) := by
  rw [List.perm_ext_iff_of_nodup (b2cs_keys_nodup _ _) (b2cs_keys_nodup _ _)]
  intro key
  rw [mem_b2cs_keys, mem_b2cs_keys, or_comm]

theorem b2cs_finding_some {filed books : List (String × Bucket)} (hfiled : Named filed)
    (hbooks : Named books) (h : b2csFinding filed books key = some f) :
    b2csKey f.supplyType f.rate f.placeOfSupply = key ∧ f.filed = bucketFigures filed key ∧
      f.books = bucketFigures books key ∧
      f.delta = bucketFigures books key - bucketFigures filed key := by
  simp only [b2csFinding] at h
  by_cases hzero : isZero (bucketFigures books key - bucketFigures filed key) = true
  · rw [if_pos hzero] at h
    cases h
  · rw [if_neg hzero] at h
    obtain ⟨shape, hshape, rfl⟩ := Option.map_eq_some_iff.mp h
    refine ⟨?_, rfl, rfl, rfl⟩
    rcases Option.or_eq_some_iff.mp hshape with hget | ⟨-, hget⟩
    · exact hbooks.2 (key, shape) ((Dict.get_some hbooks.1).mp hget)
    · exact hfiled.2 (key, shape) ((Dict.get_some hfiled.1).mp hget)

theorem b2cs_exchanged {filed books : List (String × Bucket)} (hfiled : Named filed)
    (hbooks : Named books) :
    (((b2csKeys books filed).filterMap (b2csFinding books filed)).map fun f =>
      (b2csKey f.supplyType f.rate f.placeOfSupply, f.filed, f.books, f.delta)).Perm
    (((b2csKeys filed books).filterMap (b2csFinding filed books)).map fun f =>
      (b2csKey f.supplyType f.rate f.placeOfSupply, f.books, f.filed, -f.delta)) := by
  rw [List.map_filterMap, List.map_filterMap]
  refine ((b2cs_keys_comm _ _).filterMap _).trans ?_
  apply List.Perm.of_eq
  apply List.filterMap_congr
  intro key hkey
  have hkey' := (b2cs_keys_comm filed books).mem_iff.mpr hkey
  cases hfound : b2csFinding filed books key with
  | none =>
    have hsame := (b2cs_finding_none hkey).mp hfound
    rw [(b2cs_finding_none hkey').mpr hsame.symm]
    rfl
  | some f =>
    have hdiff : b2csFinding books filed key ≠ none := by
      intro hnone
      have hsame := (b2cs_finding_none hkey').mp hnone
      rw [(b2cs_finding_none hkey).mpr hsame.symm] at hfound
      cases hfound
    obtain ⟨g, hg⟩ := Option.ne_none_iff_exists'.mp hdiff
    obtain ⟨hname, hwas, hnow, hdelta⟩ := b2cs_finding_some hfiled hbooks hfound
    obtain ⟨hname', hwas', hnow', hdelta'⟩ := b2cs_finding_some hbooks hfiled hg
    rw [hg, Option.map_some, Option.map_some, hname, hwas, hnow, hdelta, hname', hwas', hnow',
      hdelta', neg_sub]

theorem missing_entries (mark : DocKey × Entry → String) (l : List (DocKey × Entry)) :
    (bySize (·.figures) (·.docNo)
      (l.map fun t => ({ t.2 with declareIn := mark t } : Missing))).map (·.toEntry) =
    bySize (·.figures) (·.docNo) (l.map Prod.snd) := by
  refine (by_size_map Missing.toEntry (·.figures) (·.docNo) _).trans ?_
  rw [List.map_map]
  rfl

/-- Exchanging the two payloads negates what is found. -/
theorem exchanged (filed books : Payload) :
    Exchanged (comparePayloads filed books) (comparePayloads books filed) where
  added := by
    simp only [comparePayloads]
    rw [missing_entries fun _ => declareCurrent, missing_entries fun t => amendmentTable t.2.kind]
  removed := by
    simp only [comparePayloads]
    rw [missing_entries fun _ => declareCurrent, missing_entries fun t => amendmentTable t.2.kind]
  changed := by
    refine ((by_size_perm _ _ _).map _).trans ?_
    refine List.Perm.trans ?_ ((by_size_perm _ _ _).map _).symm
    rw [List.map_map, List.map_map]
    apply common_exchanged
    · intro t
      rw [table_moved_swap, delta_swap, is_zero_neg]
    · intro t ht
      obtain ⟨hwas, hnow⟩ := common_keys ht
      simp only [Function.comp_apply, amountChangedOf, hwas, hnow, delta_swap]
  reclassified := by
    refine ((by_size_perm _ _ _).map _).trans ?_
    refine List.Perm.trans ?_ ((by_size_perm _ _ _).map _).symm
    rw [List.map_map, List.map_map]
    apply common_exchanged
    · exact table_moved_swap
    · intro t ht
      obtain ⟨hwas, hnow⟩ := common_keys ht
      simp only [Function.comp_apply, reclassifiedOf, hwas, hnow, delta_swap]
  b2cs := by
    refine ((by_size_perm _ _ _).map _).trans ?_
    refine List.Perm.trans ?_ ((by_size_perm _ _ _).map _).symm
    exact b2cs_exchanged (rows_named _) (rows_named _)
  totals := by
    have hrows := b2cs_exchanged (rows_named filed.b2cs) (rows_named books.b2cs)
    have hfiled := (hrows.map fun f => f.2.1).sum_eq
    have hbooks := (hrows.map fun f => f.2.2.1).sum_eq
    simp only [List.map_map, Function.comp_def] at hfiled hbooks
    simp only [comparePayloads, indexB2cs, hfiled, hbooks, neg_sub]

theorem sum_buckets {filed books : List (String × Bucket)} (hfiled : Dict.Keyed filed)
    (hbooks : Dict.Keyed books)
    (hsame : ∀ key, bucketFigures filed key = bucketFigures books key) :
    (filed.map (·.2.figures)).sum = (books.map (·.2.figures)).sum := by
  have hkeys := b2cs_keys_nodup filed books
  have hcover : ∀ t ∈ filed, t.1 ∈ b2csKeys filed books := fun t ht =>
    mem_b2cs_keys.mpr (.inl (List.mem_map_of_mem ht))
  have hcover' : ∀ t ∈ books, t.1 ∈ b2csKeys filed books := fun t ht =>
    mem_b2cs_keys.mpr (.inr (List.mem_map_of_mem ht))
  rw [Dict.sum_keys hkeys hfiled hcover Bucket.figures,
    Dict.sum_keys hkeys hbooks hcover' Bucket.figures]
  exact congrArg List.sum (List.map_congr_left fun key _ => hsame key)

/-- What is indexed alike comes to the same. -/
theorem same_indexed_sums {filed books : Payload} (h : SameIndexed filed books) :
    totals (indexDocuments filed) = totals (indexDocuments books) ∧
      (filed.b2cs.map (·.figures)).sum = (books.b2cs.map (·.figures)).sum := by
  obtain ⟨hfiled, hbooks, hrows⟩ := h
  constructor
  · have hmoved := totals_moved filed books
    rw [movedSum, movedSum, List.filter_eq_nil_iff.mpr fun t ht => by simp [hbooks t ht],
      List.filter_eq_nil_iff.mpr fun t ht => by simp [hfiled t ht]] at hmoved
    exact (sub_eq_zero.mp (hmoved.trans (sub_self _))).symm
  · rw [← sum_rows, ← sum_rows]
    exact sum_buckets (rows_keyed _) (rows_keyed _) hrows

/-- Two returns that declare the same outward figures. -/
def SameFigures (a b : Gstr1Outward) : Prop :=
  a.taxableAndZeroRated = b.taxableAndZeroRated ∧
  a.nilRatedAndExemptPaise = b.nilRatedAndExemptPaise ∧ a.nonGstPaise = b.nonGstPaise ∧
  a.heldOutReverseCharge = b.heldOutReverseCharge

theorem same_figures_iff {filed books : Payload} (h : SameIndexed filed books) :
    SameFigures (readGstr1Outward filed) (readGstr1Outward books) ↔
      leftOut filed = leftOut books := by
  obtain ⟨hdocs, hrows⟩ := same_indexed_sums h
  have hheld : ∀ p, (readGstr1Outward p).heldOutReverseCharge = (leftOut p).heldOut := fun p =>
    (read_charged p).1
  have hnil : ∀ p, (readGstr1Outward p).nilRatedAndExemptPaise = (leftOut p).nilRatedAndExempt :=
    fun p => rfl
  have hnon : ∀ p, (readGstr1Outward p).nonGstPaise = (leftOut p).nonGst := fun p => rfl
  unfold SameFigures
  rw [read_indexed, read_indexed, hdocs, hrows, add_right_inj, hheld, hheld, hnil, hnil, hnon, hnon]
  constructor
  · rintro ⟨hrest, hnils, hnons, hhelds⟩
    rw [hhelds, sub_left_inj] at hrest
    exact LeftOut.ext hhelds hnils hnons hrest
  · intro heq
    rw [heq]
    exact ⟨rfl, rfl, rfl, rfl⟩

/-- What the comparison says of two returns is so: nothing found means equal figures, the totals are
the findings' signed sum, and the returns exchanged give the same findings the other way round. -/
def Truthful (filed books : Payload) : Prop :=
  ((comparePayloads filed books).clean = true →
    SameFigures (readGstr1Outward filed) (readGstr1Outward books)) ∧
  (comparePayloads filed books).totals.delta = (comparePayloads filed books).moves ∧
  Exchanged (comparePayloads filed books) (comparePayloads books filed)

/-- The comparison is truthful exactly where returns that index alike agree in what is left unread,
and the credit notes that moved come to the same on both sides. -/
theorem truthful_iff (filed books : Payload) :
    Truthful filed books ↔
      (SameIndexed filed books → leftOut filed = leftOut books) ∧
        movedCredits filed books = movedCredits books filed := by
  have hcredits : (comparePayloads filed books).totals.delta =
      (comparePayloads filed books).moves ↔
        movedCredits filed books = movedCredits books filed := by
    rw [totals_moves, add_eq_left, smul_eq_zero_iff_right two_ne_zero, sub_eq_zero]
    exact eq_comm
  unfold Truthful
  rw [clean_iff, hcredits, and_iff_left (exchanged filed books)]
  apply and_congr_left
  intro _
  exact forall_congr' fun hsame => same_figures_iff hsame

/-- A note filed under the given type. -/
def noteOf (ntty : String) : Payload :=
  { cdnr := [⟨"27AAAAA0000A1Z5", "", "", [⟨"", "CN-1", "", "10-08-2025", "", "N", ntty, "", "", "",
      "", [fun head => if head = .taxable then 100000 else 0]⟩]⟩] }

/-- A credit note that is a debit note in the books now: nothing is found, and the return declares
another value. -/
theorem flipped_note_clean : ¬ ∀ filed books, Truthful filed books := by
  intro h
  have hclean := (h (noteOf "C") (noteOf "D")).1 (by decide +kernel)
  have hvalue := congrFun hclean.1 .taxable
  revert hvalue
  decide +kernel

end Caflow.Gst.ExceptionReport
