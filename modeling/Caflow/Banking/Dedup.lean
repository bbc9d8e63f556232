import Caflow.Banking.Normalizer
import Caflow.Failure
import Caflow.Lib.Delimited
import Caflow.Lib.Dict
import Caflow.Lib.Occurrences

namespace Caflow.Banking.Dedup
open Delimited Occurrences

section
variable (sha256 lower : String → String) (clientId : String) (bankAccountId : Option String)

/-- A fingerprint of a row that is `occurrence` rows after the first like it in its file. -/
def transactionHash (transactionDate : String) (debitPaise creditPaise balancePaise : ℤ)
    (description : String) (referenceNo : Option String) (occurrence : ℕ) : String :=
  let parts := [clientId, bankAccountId.getD "", String.ofList (transactionDate.toList.take 10),
    toString debitPaise, toString creditPaise, toString balancePaise,
    lower (Text.squeeze description), lower (Text.strip (referenceNo.getD "")),
    toString occurrence]
  sha256 ("|".intercalate parts)

def rowHash (r : NormalizedTxn) (occurrence : ℕ) : String :=
  transactionHash sha256 lower clientId bankAccountId r.transactionDate r.debitPaise r.creditPaise
    r.balancePaise r.description r.referenceNo occurrence

/-- What the loop over the rows of a file keeps. -/
structure Hashing where
  seen : List (String × ℕ)
  out : List String
  repeated : ℕ

def hashRow (s : Hashing) (r : NormalizedTxn) : Hashing :=
  let base := rowHash sha256 lower clientId bankAccountId r 0
  let n := (Dict.get s.seen base).getD 0
  { seen := Dict.set base (n + 1) s.seen
    out := s.out ++ [if n = 0 then base else rowHash sha256 lower clientId bankAccountId r n]
    repeated := if n = 0 then s.repeated else s.repeated + 1 }

/-- One hash a row, in order, and how many rows repeat an earlier one. -/
def hashRows (rows : List NormalizedTxn) : List String × ℕ :=
  let s := rows.foldl (hashRow sha256 lower clientId bankAccountId) ⟨[], [], 0⟩
  (s.out, s.repeated)

end

/-- A line that is stored, under the hash it came in by. -/
structure StoredTxn where
  importHash : String
  txn : NormalizedTxn
  deriving DecidableEq

structure ImportResult where
  imported : ℕ
  duplicatesSkipped : ℕ
  totalRows : ℕ
  repeatedInFile : ℕ
  balanceRowsSkipped : Option ℕ

/-- The upsert on the hash: a row whose hash is there is passed over. -/
def upsertIgnoring (stored rows : List StoredTxn) : List StoredTxn :=
  rows.foldl (fun stored r =>
    if r.importHash ∈ stored.map StoredTxn.importHash then stored else stored ++ [r]) stored

section
variable (sha256 lower : String → String) (clientId : String) (bankAccountId : Option String)

def importCore (stored : List StoredTxn) (norm : List NormalizedTxn) :
    Except Failure (List StoredTxn × ImportResult) :=
  if norm = [] then .error (.http 400 "No transactions provided.")
  else
    let hashes := hashRows sha256 lower clientId bankAccountId norm
    let deduped := List.zipWith StoredTxn.mk hashes.1 norm
    let newRows := deduped.filter fun r => r.importHash ∉ stored.map StoredTxn.importHash
    let duplicates := norm.length - newRows.length
    if newRows = [] then .ok (stored, ⟨0, duplicates, norm.length, hashes.2, none⟩)
    else
      let markers := newRows.countP (·.txn.isBalanceMarker)
      let newRows := newRows.filter (!·.txn.isBalanceMarker)
      if newRows = [] then .ok (stored, ⟨0, duplicates, norm.length, hashes.2, some markers⟩)
      else
        .ok (upsertIgnoring stored newRows,
          ⟨newRows.length, duplicates, norm.length, hashes.2, some markers⟩)

/-- What is stored once an import has its answer. One that is refused stores nothing. -/
def storedAfter (stored : List StoredTxn) :
    Except Failure (List StoredTxn × ImportResult) → List StoredTxn
  | .ok (stored', _) => stored'
  | .error _ => stored

/-- What is stored after some files come in one after another. -/
def importAll (files : List (List NormalizedTxn)) : List StoredTxn :=
  files.foldl (fun stored norm =>
    storedAfter stored (importCore sha256 lower clientId bankAccountId stored norm)) []

end

/-- What tells one row from another, whatever their case and their blanks. -/
structure Fingerprint where
  date : String
  debitPaise : ℤ
  creditPaise : ℤ
  balancePaise : ℤ
  description : String
  reference : String
  deriving DecidableEq

def fingerprint (lower : String → String) (r : NormalizedTxn) : Fingerprint where
  date := String.ofList (r.transactionDate.toList.take 10)
  debitPaise := r.debitPaise
  creditPaise := r.creditPaise
  balancePaise := r.balancePaise
  description := lower (Text.squeeze r.description)
  reference := lower (Text.strip (r.referenceNo.getD ""))

/-- Rows whose fields the bars between them tell apart. -/
structure Separable (lower : String → String) (rows : List NormalizedTxn) : Prop where
  dates : ∀ r ∈ rows, '|' ∉ (fingerprint lower r).date.toList
  words : (∀ r ∈ rows, '|' ∉ (fingerprint lower r).description.toList) ∨
    ∀ r ∈ rows, '|' ∉ (fingerprint lower r).reference.toList

section
variable {sha256 lower : String → String} {clientId : String} {bankAccountId : Option String}
  {rows : List NormalizedTxn} {r r' : NormalizedTxn} {n n' : ℕ}

theorem digits_bar (n : ℕ) : '|' ∉ (toString n).toList := by
  intro h
  rw [Nat.toString_eq_repr, Nat.repr, String.toList_ofList] at h
  exact absurd (Nat.isDigit_of_mem_toDigits (by decide) (by decide) h) (by decide)

theorem int_bar (i : ℤ) : '|' ∉ (toString i).toList := by
  cases i with
  | ofNat n => exact digits_bar n
  | negSucc n =>
    have hneg : toString (Int.negSucc n) = "-" ++ toString (n + 1) := rfl
    rw [hneg, String.toList_append, List.mem_append, not_or]
    exact ⟨by decide, digits_bar (n + 1)⟩

theorem int_text {i j : ℤ} : (toString i).toList = (toString j).toList ↔ i = j := by
  rw [String.toList_inj]
  exact Int.repr_inj

theorem nat_text {m n : ℕ} : (toString m).toList = (toString n).toList ↔ m = n := by
  rw [String.toList_inj, Nat.toString_eq_repr, Nat.toString_eq_repr, Nat.repr_inj]

/-- The fields as they are joined, before the number of the occurrence. -/
def joined (clientId : String) (bankAccountId : Option String) (p : Fingerprint) : List Char :=
  clientId.toList ++ '|' :: ((bankAccountId.getD "").toList ++ '|' :: (p.date.toList ++
    '|' :: ((toString p.debitPaise).toList ++ '|' :: ((toString p.creditPaise).toList ++
    '|' :: ((toString p.balancePaise).toList ++ '|' :: (p.description.toList ++
    '|' :: p.reference.toList))))))

theorem row_hash_eq (r : NormalizedTxn) (n : ℕ) :
    rowHash sha256 lower clientId bankAccountId r n = sha256 (String.ofList
      (joined clientId bankAccountId (fingerprint lower r) ++ '|' :: (toString n).toList)) := by
  rw [rowHash, transactionHash]
  congr 1
  rw [← String.toList_inj, String.toList_intercalate, String.toList_ofList]
  simp [joined, fingerprint, List.intercalate]

theorem row_hash_inj (hsha : Function.Injective sha256) :
    rowHash sha256 lower clientId bankAccountId r n =
        rowHash sha256 lower clientId bankAccountId r' n' ↔
      joined clientId bankAccountId (fingerprint lower r) =
        joined clientId bankAccountId (fingerprint lower r') ∧ n = n' := by
  rw [row_hash_eq, row_hash_eq, hsha.eq_iff, String.ofList_inj,
    cut_last (digits_bar n) (digits_bar n'), nat_text]

/-- What a bar does not divide wrongly is read off the joined fields. -/
theorem joined_inj {p q : Fingerprint} (hp : '|' ∉ p.date.toList) (hq : '|' ∉ q.date.toList)
    (hwords : ('|' ∉ p.description.toList ∧ '|' ∉ q.description.toList) ∨
      ('|' ∉ p.reference.toList ∧ '|' ∉ q.reference.toList)) :
    joined clientId bankAccountId p = joined clientId bankAccountId q ↔ p = q := by
  have hlast : p.description.toList ++ '|' :: p.reference.toList =
        q.description.toList ++ '|' :: q.reference.toList ↔
      p.description = q.description ∧ p.reference = q.reference := by
    rw [← String.toList_inj, ← String.toList_inj]
    rcases hwords with ⟨hdp, hdq⟩ | ⟨hrp, hrq⟩
    · exact cut_first hdp hdq
    · exact cut_last hrp hrq
  rw [joined, joined, List.append_cancel_left_eq, List.cons.injEq, List.append_cancel_left_eq,
    List.cons.injEq, cut_first hp hq, cut_first (int_bar _) (int_bar _),
    cut_first (int_bar _) (int_bar _), cut_first (int_bar _) (int_bar _), hlast, String.toList_inj,
    int_text, int_text, int_text]
  cases p
  cases q
  simp

theorem Separable.print (h : Separable lower rows) (hr : r ∈ rows) (hr' : r' ∈ rows) :
    joined clientId bankAccountId (fingerprint lower r) =
        joined clientId bankAccountId (fingerprint lower r') ↔
      fingerprint lower r = fingerprint lower r' :=
  joined_inj (h.dates r hr) (h.dates r' hr')
    (h.words.imp (fun hw => ⟨hw r hr, hw r' hr'⟩) fun hw => ⟨hw r hr, hw r' hr'⟩)

end

section
variable {sha256 lower : String → String} {clientId : String} {bankAccountId : Option String}
  {rows : List NormalizedTxn} {r : NormalizedTxn}

/-- The hash of the first row of its kind in a file, by which the loop counts. -/
def base (sha256 lower : String → String) (clientId : String) (bankAccountId : Option String)
    (r : NormalizedTxn) : String :=
  rowHash sha256 lower clientId bankAccountId r 0

/-- A row under the hash of its tag. -/
def store (sha256 lower : String → String) (clientId : String) (bankAccountId : Option String)
    (t : (String × ℕ) × NormalizedTxn) : StoredTxn :=
  ⟨rowHash sha256 lower clientId bankAccountId t.2 t.1.2, t.2⟩

/-- What the loop keeps once some rows are through. -/
structure Through (sha256 lower : String → String) (clientId : String)
    (bankAccountId : Option String) (before : List NormalizedTxn) (s : Hashing) : Prop where
  seen : ∀ b, (Dict.get s.seen b).getD 0 = count (base sha256 lower clientId bankAccountId) b before
  out : s.out = (tagged (base sha256 lower clientId bankAccountId) before).map fun t =>
    rowHash sha256 lower clientId bankAccountId t.2 t.1.2
  repeated : s.repeated =
    (tagged (base sha256 lower clientId bankAccountId) before).countP (·.1.2 ≠ 0)

theorem Through.row {before : List NormalizedTxn} {s : Hashing}
    (h : Through sha256 lower clientId bankAccountId before s) (r : NormalizedTxn) :
    Through sha256 lower clientId bankAccountId (before ++ [r])
      (hashRow sha256 lower clientId bankAccountId s r) := by
  have hn := h.seen (base sha256 lower clientId bankAccountId r)
  unfold hashRow
  dsimp only
  rw [← base, hn]
  constructor
  · intro b
    rw [count_concat]
    by_cases hb : base sha256 lower clientId bankAccountId r = b
    · subst hb
      rw [if_pos rfl, Dict.get_set_self, Option.getD_some]
    · rw [if_neg hb, Dict.get_set_other _ _ hb, h.seen, add_zero]
  · rw [tagged_concat, List.map_append, h.out]
    split
    · rename_i hzero
      rw [List.map_singleton, hzero]
      rfl
    · rfl
  · rw [tagged_concat, List.countP_append, List.countP_singleton, h.repeated]
    split
    · rename_i hzero
      simp [hzero]
    · rename_i hmore
      simp [hmore]

theorem hash_rows_through (rows : List NormalizedTxn) :
    Through sha256 lower clientId bankAccountId rows
      (rows.foldl (hashRow sha256 lower clientId bankAccountId) ⟨[], [], 0⟩) := by
  induction rows using List.reverseRecOn with
  | nil => exact ⟨fun _ => rfl, rfl, rfl⟩
  | append_singleton rows r ih =>
    rw [List.foldl_append]
    exact ih.row r

/-- A row is hashed with the number of rows before it that start from the same hash. -/
theorem hash_rows_tagged (rows : List NormalizedTxn) :
    (hashRows sha256 lower clientId bankAccountId rows).1 =
      (tagged (base sha256 lower clientId bankAccountId) rows).map fun t =>
        rowHash sha256 lower clientId bankAccountId t.2 t.1.2 :=
  (hash_rows_through rows).out

/-- Rows that start from one hash come to one hash where they are numbered alike. -/
theorem tag_hash (hsha : Function.Injective sha256) {t u : (String × ℕ) × NormalizedTxn}
    (ht : t.1.1 = base sha256 lower clientId bankAccountId t.2)
    (hu : u.1.1 = base sha256 lower clientId bankAccountId u.2) :
    rowHash sha256 lower clientId bankAccountId t.2 t.1.2 =
        rowHash sha256 lower clientId bankAccountId u.2 u.1.2 ↔ t.1 = u.1 := by
  rw [row_hash_inj hsha, Prod.ext_iff, ht, hu, base, base, row_hash_inj hsha]
  simp

theorem hashes_nodup (hsha : Function.Injective sha256) (rows : List NormalizedTxn) :
    (hashRows sha256 lower clientId bankAccountId rows).1.Nodup := by
  have htags := tags_nodup (base sha256 lower clientId bankAccountId) [] rows
  rw [hash_rows_tagged, List.nodup_iff_pairwise_ne, List.pairwise_map]
  rw [List.nodup_iff_pairwise_ne, List.pairwise_map] at htags
  refine htags.imp_of_mem fun ht hu hne heq => hne ?_
  exact (tag_hash hsha (tag_key ht) (tag_key hu)).mp heq

theorem base_print (hsha : Function.Injective sha256) (h : Separable lower rows)
    {r r' : NormalizedTxn} (hr : r ∈ rows) (hr' : r' ∈ rows) :
    base sha256 lower clientId bankAccountId r = base sha256 lower clientId bankAccountId r' ↔
      fingerprint lower r = fingerprint lower r' := by
  rw [base, base, row_hash_inj hsha, and_iff_left rfl]
  exact h.print hr hr'

/-- Among rows the bars tell apart, those that start from one hash are those of one fingerprint. -/
theorem count_print (hsha : Function.Injective sha256) (h : Separable lower rows) (hr : r ∈ rows)
    {l : List NormalizedTxn} (hl : ∀ x ∈ l, x ∈ rows) :
    count (base sha256 lower clientId bankAccountId) (base sha256 lower clientId bankAccountId r) l =
      count (fingerprint lower) (fingerprint lower r) l := by
  apply List.countP_congr
  intro x hx
  rw [decide_eq_true_iff, decide_eq_true_iff]
  exact base_print hsha h (hl x hx) hr

/-- The hash of a row in its file. -/
theorem hash_at {i : ℕ} (hi : rows[i]? = some r) :
    (hashRows sha256 lower clientId bankAccountId rows).1[i]? =
      some (rowHash sha256 lower clientId bankAccountId r
        (count (base sha256 lower clientId bankAccountId)
          (base sha256 lower clientId bankAccountId r) (rows.take i))) := by
  rw [hash_rows_tagged, List.getElem?_map, tagged_at hi]
  rfl

/-- Two rows come to one hash where they have one fingerprint and as many rows of it before them in
their own files. -/
theorem hash_eq_iff (hsha : Function.Injective sha256) {file file' : List NormalizedTxn}
    (h : Separable lower (file ++ file')) {i j : ℕ} {r r' : NormalizedTxn}
    (hi : file[i]? = some r) (hj : file'[j]? = some r') :
    (hashRows sha256 lower clientId bankAccountId file).1[i]? =
        (hashRows sha256 lower clientId bankAccountId file').1[j]? ↔
      fingerprint lower r = fingerprint lower r' ∧
        count (fingerprint lower) (fingerprint lower r) (file.take i) =
          count (fingerprint lower) (fingerprint lower r') (file'.take j) := by
  have hr : r ∈ file ++ file' := List.mem_append_left _ (List.mem_of_getElem? hi)
  have hr' : r' ∈ file ++ file' := List.mem_append_right _ (List.mem_of_getElem? hj)
  rw [hash_at hi, hash_at hj, Option.some.injEq, row_hash_inj hsha, h.print hr hr',
    count_print hsha h hr fun x hx => List.mem_append_left _ (List.mem_of_mem_take hx),
    count_print hsha h hr' fun x hx => List.mem_append_right _ (List.mem_of_mem_take hx)]

theorem upsert_fresh {stored rows : List StoredTxn}
    (hfresh : ∀ r ∈ rows, r.importHash ∉ stored.map StoredTxn.importHash)
    (honce : (rows.map StoredTxn.importHash).Nodup) :
    upsertIgnoring stored rows = stored ++ rows := by
  unfold upsertIgnoring
  induction rows generalizing stored with
  | nil => simp
  | cons r rows ih =>
    obtain ⟨hr, hrest⟩ := List.forall_mem_cons.mp hfresh
    obtain ⟨hnew, honce'⟩ := List.nodup_cons.mp honce
    rw [List.foldl_cons, if_neg hr, ih ?_ honce', List.append_assoc, List.singleton_append]
    intro x hx hmem
    rw [List.map_append, List.mem_append] at hmem
    rcases hmem with hold | hfirst
    · exact hrest x hx hold
    · rw [List.map_singleton, List.mem_singleton] at hfirst
      exact hnew (hfirst ▸ List.mem_map_of_mem hx)

/-- The rows of a file that come to be stored: those whose hash is new, the balance rows apart. -/
def newRows (sha256 lower : String → String) (clientId : String) (bankAccountId : Option String)
    (stored : List StoredTxn) (norm : List NormalizedTxn) : List StoredTxn :=
  ((List.zipWith StoredTxn.mk (hashRows sha256 lower clientId bankAccountId norm).1 norm).filter
    fun r => r.importHash ∉ stored.map StoredTxn.importHash).filter (!·.txn.isBalanceMarker)

theorem zip_stored (rows : List NormalizedTxn) :
    List.zipWith StoredTxn.mk (hashRows sha256 lower clientId bankAccountId rows).1 rows =
      (tagged (base sha256 lower clientId bankAccountId) rows).map
        (store sha256 lower clientId bankAccountId) := by
  have hrows := tagged_rows (base sha256 lower clientId bankAccountId) [] rows
  rw [← tagged] at hrows
  rw [hash_rows_tagged]
  nth_rewrite 2 [← hrows]
  rw [List.zipWith_map, List.zipWith_self]
  rfl

/-- An import stores the new rows. The upsert passes none of them over. -/
theorem import_stored (hsha : Function.Injective sha256) (stored : List StoredTxn)
    (norm : List NormalizedTxn) :
    storedAfter stored (importCore sha256 lower clientId bankAccountId stored norm) =
      stored ++ newRows sha256 lower clientId bankAccountId stored norm := by
  have hupsert : upsertIgnoring stored (newRows sha256 lower clientId bankAccountId stored norm) =
      stored ++ newRows sha256 lower clientId bankAccountId stored norm := by
    apply upsert_fresh
    · intro r hr
      exact of_decide_eq_true (List.mem_filter.mp (List.mem_filter.mp hr).1).2
    · have hsub : (newRows sha256 lower clientId bankAccountId stored norm).Sublist
          (List.zipWith StoredTxn.mk (hashRows sha256 lower clientId bankAccountId norm).1 norm) :=
        List.filter_sublist.trans List.filter_sublist
      have hnodup : (hashRows sha256 lower clientId bankAccountId norm).1.Nodup :=
        hashes_nodup hsha norm
      apply (hsub.map StoredTxn.importHash).nodup
      rw [zip_stored, List.map_map]
      rw [hash_rows_tagged] at hnodup
      exact hnodup
  unfold importCore
  by_cases hnorm : norm = []
  · subst hnorm
    exact (List.append_nil stored).symm
  rw [if_neg hnorm]
  dsimp only
  split
  · rename_i hnone
    rw [newRows, hnone]
    exact (List.append_nil stored).symm
  split
  · rename_i hmarkers
    rw [newRows, hmarkers]
    exact (List.append_nil stored).symm
  · exact hupsert

/-- Rows that are held by their tags, each stored under the hash of its tag, take in a file as an
upload does. -/
theorem new_rows_take_in (hsha : Function.Injective sha256)
    {held : List ((String × ℕ) × NormalizedTxn)}
    (hown : ∀ t ∈ held, t.1.1 = base sha256 lower clientId bankAccountId t.2)
    (norm : List NormalizedTxn) :
    held.map (store sha256 lower clientId bankAccountId) ++ newRows sha256 lower clientId
        bankAccountId (held.map (store sha256 lower clientId bankAccountId)) norm =
      (takeIn (base sha256 lower clientId bankAccountId) (!·.isBalanceMarker) held norm).map
        (store sha256 lower clientId bankAccountId) := by
  rw [takeIn, List.map_append, newRows, zip_stored, List.filter_map, List.filter_map,
    List.filter_filter]
  congr 2
  apply List.filter_congr
  intro t ht
  have hseen : (store sha256 lower clientId bankAccountId t).importHash ∈
      (held.map (store sha256 lower clientId bankAccountId)).map StoredTxn.importHash ↔
        t.1 ∈ held.map Prod.fst := by
    rw [List.map_map, List.mem_map, List.mem_map]
    constructor
    · rintro ⟨u, hu, heq⟩
      exact ⟨u, hu, (tag_hash hsha (hown u hu) (tag_key ht)).mp heq⟩
    · rintro ⟨u, hu, heq⟩
      exact ⟨u, hu, (tag_hash hsha (hown u hu) (tag_key ht)).mpr heq⟩
  have hfresh : decide ((store sha256 lower clientId bankAccountId t).importHash ∉
      (held.map (store sha256 lower clientId bankAccountId)).map StoredTxn.importHash) =
        decide (t.1 ∉ held.map Prod.fst) := decide_eq_decide.mpr (not_congr hseen)
  rw [Function.comp_apply, Function.comp_apply, hfresh, Bool.decide_and, Bool.and_comm]
  simp [store]

/-- What the imports of some files store is what taking them in by their tags holds. -/
theorem import_all_held (hsha : Function.Injective sha256) (files : List (List NormalizedTxn)) :
    ∃ held, Held (base sha256 lower clientId bankAccountId) (!·.isBalanceMarker) files held ∧
      importAll sha256 lower clientId bankAccountId files =
        held.map (store sha256 lower clientId bankAccountId) := by
  induction files using List.reverseRecOn with
  | nil => exact ⟨[], held_nothing _ _, rfl⟩
  | append_singleton files norm ih =>
    obtain ⟨held, h, hall⟩ := ih
    refine ⟨_, h.take_in norm, ?_⟩
    rw [← new_rows_take_in hsha h.own norm, ← hall, ← import_stored hsha]
    rw [importAll, List.foldl_append]
    rfl

/-- As many copies of a row are stored as the file with the most of them has. -/
theorem copies_stored (hsha : Function.Injective sha256) {files : List (List NormalizedTxn)}
    (h : Separable lower files.flatten) {p : Fingerprint}
    (hmoves : ∀ file ∈ files, ∀ r ∈ file, fingerprint lower r = p → r.isBalanceMarker = false) :
    count (fingerprint lower) p
        ((importAll sha256 lower clientId bankAccountId files).map StoredTxn.txn) =
      most (fingerprint lower) p files := by
  obtain ⟨held, hheld, hall⟩ := @import_all_held sha256 lower clientId bankAccountId hsha files
  have hrows : (held.map (store sha256 lower clientId bankAccountId)).map StoredTxn.txn =
      held.map Prod.snd := List.map_map
  have hamong : ∀ x ∈ held.map Prod.snd, x ∈ files.flatten := by
    intro x hx
    obtain ⟨t, ht, rfl⟩ := List.mem_map.mp hx
    exact List.mem_flatten.mpr (hheld.among t ht)
  have hfile : ∀ file ∈ files, ∀ x ∈ file, x ∈ files.flatten := fun file hf x hx =>
    List.mem_flatten.mpr ⟨file, hf, hx⟩
  rw [hall, hrows]
  by_cases hp : ∃ r ∈ files.flatten, fingerprint lower r = p
  · obtain ⟨r, hr, rfl⟩ := hp
    rw [← count_print hsha h hr hamong, hheld.copies]
    · exact most_congr fun file hf => count_print hsha h hr (hfile file hf)
    · intro file hf a ha hbase
      have hsame := (base_print hsha h (hfile file hf a ha) hr).mp hbase
      rw [hmoves file hf a ha hsame]
      rfl
  · have hnone : ∀ l : List NormalizedTxn, (∀ x ∈ l, x ∈ files.flatten) →
        count (fingerprint lower) p l = 0 := by
      intro l hl
      rw [count, List.countP_eq_zero]
      intro x hx hxp
      exact hp ⟨x, hl x hx, of_decide_eq_true hxp⟩
    rw [hnone _ hamong, most_none fun file hf => hnone file (hfile file hf)]

/-- Rows of a file come under hashes of their own. Two rows, of any two files, come under one hash
where they have one fingerprint and the same number among the rows of it in their file. Of a row that
moves money there are as many copies stored as the file with the most of them has. -/
theorem each_copy_once (sha256 lower : String → String) (hsha : Function.Injective sha256)
    (clientId : String) (bankAccountId : Option String) :
    (∀ rows, (hashRows sha256 lower clientId bankAccountId rows).1.Nodup) ∧
    (∀ file file', Separable lower (file ++ file') →
      ∀ i r, file[i]? = some r → ∀ j r', file'[j]? = some r' →
        ((hashRows sha256 lower clientId bankAccountId file).1[i]? =
            (hashRows sha256 lower clientId bankAccountId file').1[j]? ↔
          fingerprint lower r = fingerprint lower r' ∧
            count (fingerprint lower) (fingerprint lower r) (file.take i) =
              count (fingerprint lower) (fingerprint lower r') (file'.take j))) ∧
    ∀ files, Separable lower files.flatten →
      ∀ p, (∀ file ∈ files, ∀ r ∈ file, fingerprint lower r = p → r.isBalanceMarker = false) →
        count (fingerprint lower) p
            ((importAll sha256 lower clientId bankAccountId files).map StoredTxn.txn) =
          most (fingerprint lower) p files :=
  ⟨hashes_nodup hsha,
    fun _ _ h _ _ hi _ _ hj => hash_eq_iff hsha h hi hj,
    fun _ h _ hmoves => copies_stored hsha h hmoves⟩

end

/-- The digests of the texts below, and another text for every other one. -/
def digest (text : String) : String :=
  if text = "client-1|account-1|2025-04-01|500000|0|0|atm wdl||0" then
    "d9fd6968477d6d7d50c53e517321238168a65f37fdeba22e00c6aead7bc8a6c9"
  else if text = "client-1|account-1|2025-04-01|500000|0|0|atm wdl||1" then
    "25cb33f1d47ee6c5cc13d44bd35cea8e161014ed21ebaf2e28d3a2c43b835585"
  else if text = "client-1|account-1|2025-04-02|0|120000|0|upi rent|ref 7|0" then
    "3527afa8ce0dd37d307f5822202c016769593b06a43d3a4be132679d789cdcf2"
  else "=" ++ text

theorem digest_injective : Function.Injective digest := by
  have hother : ∀ {d text : String}, d.toList.head? ≠ some '=' → d ≠ "=" ++ text := by
    intro d text hd h
    rw [h, String.toList_append] at hd
    exact hd rfl
  intro a b h
  unfold digest at h
  split_ifs at h
  all_goals first
    | exact absurd h (by decide)
    | exact absurd h (hother (by decide))
    | exact absurd h.symm (hother (by decide))
    | (subst_vars; rfl)
    | (rw [← String.toList_inj, String.toList_append, String.toList_append] at h
       exact String.toList_inj.mp (List.cons.inj h).2)

def withdrawal : NormalizedTxn where
  transactionDate := "2025-04-01"
  description := "ATM WDL"
  referenceNo := none
  debitPaise := 500000
  creditPaise := 0
  balancePaise := 0

def rent : NormalizedTxn where
  transactionDate := "2025-04-02"
  description := "UPI  Rent"
  referenceNo := some "REF 7"
  debitPaise := 0
  creditPaise := 120000
  balancePaise := 0

theorem withdrawals_kept :
    (hashRows digest Text.lower "client-1" (some "account-1") [withdrawal, withdrawal, rent]).1.Nodup ∧
    (hashRows digest Text.lower "client-1" (some "account-1") [withdrawal, withdrawal]).1[1]? =
      (hashRows digest Text.lower "client-1" (some "account-1")
        [withdrawal, withdrawal, rent]).1[1]? ∧
    count (fingerprint Text.lower) (fingerprint Text.lower withdrawal)
      ((importAll digest Text.lower "client-1" (some "account-1")
        [[withdrawal, withdrawal], [withdrawal, withdrawal, rent]]).map StoredTxn.txn) = 2 := by
  obtain ⟨honce, hsame, hcopies⟩ :=
    each_copy_once digest Text.lower digest_injective "client-1" (some "account-1")
  have hfiles : Separable Text.lower [withdrawal, withdrawal, withdrawal, withdrawal, rent] :=
    ⟨by decide +kernel, .inl (by decide +kernel)⟩
  refine ⟨honce _, ?_, ?_⟩
  · exact (hsame [withdrawal, withdrawal] [withdrawal, withdrawal, rent] hfiles 1 withdrawal rfl 1
      withdrawal rfl).mpr ⟨rfl, rfl⟩
  · exact (hcopies [[withdrawal, withdrawal], [withdrawal, withdrawal, rent]] hfiles
      (fingerprint Text.lower withdrawal) (by decide +kernel)).trans (by decide +kernel)

def sameInLowerCase : NormalizedTxn := { withdrawal with description := "atm  wdl" }

/-- Two rows whose descriptions differ in case and blanks come to one hash, and one is stored. -/
theorem case_told_apart_not :
    withdrawal.description ≠ sameInLowerCase.description ∧
    (hashRows digest Text.lower "client-1" (some "account-1") [withdrawal]).1 =
      (hashRows digest Text.lower "client-1" (some "account-1") [sameInLowerCase]).1 ∧
    importAll digest Text.lower "client-1" (some "account-1") [[withdrawal], [sameInLowerCase]] =
      importAll digest Text.lower "client-1" (some "account-1") [[withdrawal]] :=
  ⟨by decide, by decide +kernel, by decide +kernel⟩

end Caflow.Banking.Dedup
