import Caflow.Gst.ItcMatching
import Caflow.Lib.Tally

namespace Caflow.Gst.ItcMatching
open FirstCome Tally

/-- What has to agree for a bill and a document to match. -/
def BookBill.figures (b : BookBill) : ℤ × ℤ := (b.taxPaise, b.taxablePaise)

def PortalDocument.figures (d : PortalDocument) : ℤ × ℤ := (d.taxPaise, d.taxablePaise)

theorem compare_status (b : BookBill) (d : PortalDocument) :
    (compare b d).status = if b.figures = d.figures then .matched else .amountMismatch := by
  have hsame : b.figures = d.figures ↔
      b.taxPaise - d.taxPaise = 0 ∧ b.taxablePaise = d.taxablePaise := by
    rw [BookBill.figures, PortalDocument.figures, Prod.mk.injEq, sub_eq_zero]
  unfold compare
  dsimp only
  split
  · rename_i h
    rw [if_pos (hsame.mpr h)]
  · rename_i h
    rw [if_neg (mt hsame.mp h)]

section
variable (alphabet : Alphabet)

/-- The bills of one key. -/
def billsOf (bills : List BookBill) (k : String × String) : List BookBill :=
  bills.filter (fun b => billKey alphabet b = k)

def documentsOf (documents : List PortalDocument) (k : String × String) : List PortalDocument :=
  documents.filter (fun d => documentKey alphabet d = k)

/-- A weight over the matches of one key: pairs in order, then the bills and the documents over. -/
def keyTotal (w : Match → ℤ) (bills : List BookBill) (documents : List PortalDocument) : ℤ :=
  ((bills.zip documents).map fun p => w (compare p.1 p.2)).sum +
    ((bills.drop documents.length).map fun b => w (missingIn2b b)).sum +
    ((documents.drop bills.length).map fun d => w (missingInBooks d)).sum

/-- The matches as amounts posted under their keys. -/
def weighed (w : Match → ℤ)
    (taken : List (BookBill × Option PortalDocument) × List PortalDocument) :
    List ((String × String) × ℤ) :=
  taken.1.map (fun p => (billKey alphabet p.1, w (report p))) ++
    taken.2.map fun d => (documentKey alphabet d, w (missingInBooks d))

theorem weighed_total (w : Match → ℤ)
    (taken : List (BookBill × Option PortalDocument) × List PortalDocument) :
    ((weighed alphabet w taken).map Prod.snd).sum =
      ((taken.1.map report ++ taken.2.map missingInBooks).map w).sum := by
  rw [weighed, List.map_append, List.map_append, List.map_map, List.map_map, List.map_map,
    List.map_map]
  rfl

theorem weighed_tally (w : Match → ℤ)
    (taken : List (BookBill × Option PortalDocument) × List PortalDocument)
    (k : String × String) :
    tally (weighed alphabet w taken) k =
      ((taken.1.filter (fun p => billKey alphabet p.1 = k)).map fun p => w (report p)).sum +
        ((taken.2.filter (fun d => documentKey alphabet d = k)).map
          fun d => w (missingInBooks d)).sum := by
  rw [tally, weighed, List.filter_append, List.map_append, List.sum_append, List.filter_map,
    List.filter_map, List.map_map, List.map_map]
  simp only [Function.comp_def]

theorem left_over_sum (w : Match → ℤ) (bills : List BookBill) (documents : List PortalDocument) :
    ((bills.zipLeft' documents).1.map fun p => w (report p)).sum +
        ((bills.zipLeft' documents).2.map fun d => w (missingInBooks d)).sum =
      keyTotal w bills documents := by
  rw [zip_left_eq, List.map_append, List.sum_append, List.map_map, List.map_map, keyTotal]
  rfl

/-- A weight over all matches is the sum over the keys. -/
theorem total_eq (w : Match → ℤ) {keys : List (String × String)} (hkeys : keys.Nodup)
    (hbills : ∀ b ∈ bills, billKey alphabet b ∈ keys)
    (hdocuments : ∀ d ∈ documents, documentKey alphabet d ∈ keys) :
    ((reconcile alphabet bills documents).map w).sum =
      (keys.map fun k => keyTotal w (billsOf alphabet bills k)
        (documentsOf alphabet documents k)).sum := by
  have hfirst := match_up_first (billKey alphabet) (documentKey alphabet) bills documents
  have hperm := match_up_perm (billKey alphabet) (documentKey alphabet) bills documents
  have hkeyed := match_up_filter (billKey alphabet) (documentKey alphabet) bills documents
  unfold reconcile
  dsimp only
  generalize matchUp (billKey alphabet) (documentKey alphabet) bills documents = taken at *
  have hcover : ∀ p ∈ weighed alphabet w taken, p.1 ∈ keys := by
    intro p hp
    rcases List.mem_append.mp hp with hp | hp
    · obtain ⟨pair, hpair, rfl⟩ := List.mem_map.mp hp
      exact hbills _ (hfirst ▸ List.mem_map_of_mem hpair)
    · obtain ⟨d, hd, rfl⟩ := List.mem_map.mp hp
      exact hdocuments d (hperm.mem_iff.mp (List.mem_append_right _ hd))
  rw [← weighed_total, ← sum_tally hkeys hcover]
  congr 1
  apply List.map_congr_left
  intro k _
  have hpairs := congrArg Prod.fst (hkeyed k)
  have hrest := congrArg Prod.snd (hkeyed k)
  dsimp only at hpairs hrest
  rw [weighed_tally, hpairs, hrest]
  exact left_over_sum w _ _

end

def count (status : MatchStatus) (m : Match) : ℤ := if m.status = status then 1 else 0

def atRisk (m : Match) : ℤ := if m.status = .missingIn2b then billTax m else 0

theorem status_count (status : MatchStatus) (ms : List Match) :
    ((ofStatus ms status).length : ℤ) = (ms.map (count status)).sum := by
  have hsum := sum_filter (fun m : Match => m.status = status) (fun _ => (1 : ℤ)) ms
  rw [List.map_const', List.sum_replicate, nsmul_eq_mul, mul_one] at hsum
  exact hsum

theorem risk_sum (ms : List Match) :
    ((ofStatus ms .missingIn2b).map billTax).sum = (ms.map atRisk).sum :=
  sum_filter (fun m : Match => m.status = .missingIn2b) billTax ms

theorem paired_status (b : BookBill) (d : PortalDocument) :
    (compare b d).status ≠ .missingIn2b ∧ (compare b d).status ≠ .missingInBooks := by
  rw [compare_status]
  split_ifs <;> decide

theorem key_matched (bills : List BookBill) (documents : List PortalDocument) :
    keyTotal (count .matched) bills documents =
      agreements BookBill.figures PortalDocument.figures bills documents := by
  have hpair : ∀ pairs : List (BookBill × PortalDocument),
      (pairs.map fun p => count .matched (compare p.1 p.2)).sum =
        pairs.countP fun p => p.1.figures = p.2.figures := by
    intro pairs
    induction pairs with
    | nil => rfl
    | cons p pairs ih =>
      rw [List.map_cons, List.sum_cons, ih, count, compare_status, List.countP_cons]
      by_cases hp : p.1.figures = p.2.figures
      · simp [hp, add_comm]
      · simp [hp]
  have hbills : ∀ bs : List BookBill, (bs.map fun b => count .matched (missingIn2b b)).sum = 0 :=
    fun bs => List.sum_eq_zero (by simp [count, missingIn2b])
  have hdocuments : ∀ ds : List PortalDocument,
      (ds.map fun d => count .matched (missingInBooks d)).sum = 0 :=
    fun ds => List.sum_eq_zero (by simp [count, missingInBooks])
  rw [keyTotal, hpair, hbills, hdocuments, add_zero, add_zero]
  rfl

theorem key_mismatch (bills : List BookBill) (documents : List PortalDocument) :
    keyTotal (count .amountMismatch) bills documents =
      (bills.zip documents).length -
        agreements BookBill.figures PortalDocument.figures bills documents := by
  have hpair : ∀ pairs : List (BookBill × PortalDocument),
      (pairs.map fun p => count .amountMismatch (compare p.1 p.2)).sum =
        pairs.length - (pairs.countP fun p => p.1.figures = p.2.figures : ℕ) := by
    intro pairs
    induction pairs with
    | nil => rfl
    | cons p pairs ih =>
      rw [List.map_cons, List.sum_cons, ih, count, compare_status, List.countP_cons,
        List.length_cons]
      by_cases hp : p.1.figures = p.2.figures
      · simp [hp]
      · simp [hp]
        ring
  have hbills : ∀ bs : List BookBill,
      (bs.map fun b => count .amountMismatch (missingIn2b b)).sum = 0 :=
    fun bs => List.sum_eq_zero (by simp [count, missingIn2b])
  have hdocuments : ∀ ds : List PortalDocument,
      (ds.map fun d => count .amountMismatch (missingInBooks d)).sum = 0 :=
    fun ds => List.sum_eq_zero (by simp [count, missingInBooks])
  rw [keyTotal, hpair, hbills, hdocuments, add_zero, add_zero]
  rfl

/-- A weight that pairs do not have is what the bills over and the documents over have of it. -/
theorem key_over (hpair : ∀ b d, w (compare b d) = 0) (bills : List BookBill)
    (documents : List PortalDocument) :
    keyTotal w bills documents =
      ((bills.drop documents.length).map fun b => w (missingIn2b b)).sum +
        ((documents.drop bills.length).map fun d => w (missingInBooks d)).sum := by
  have hnone : ((bills.zip documents).map fun p => w (compare p.1 p.2)).sum = 0 :=
    List.sum_eq_zero (by simp [hpair])
  rw [keyTotal, hnone, zero_add]

theorem key_unfiled (bills : List BookBill) (documents : List PortalDocument) :
    keyTotal (count .missingIn2b) bills documents = (bills.length - documents.length : ℕ) := by
  rw [key_over fun b d => if_neg (paired_status b d).1]
  simp [count, missingIn2b, missingInBooks]

theorem key_unbooked (bills : List BookBill) (documents : List PortalDocument) :
    keyTotal (count .missingInBooks) bills documents = (documents.length - bills.length : ℕ) := by
  rw [key_over fun b d => if_neg (paired_status b d).2]
  simp [count, missingIn2b, missingInBooks]

theorem key_risk (bills : List BookBill) (documents : List PortalDocument) :
    keyTotal atRisk bills documents =
      ((bills.drop documents.length).map (·.taxPaise)).sum := by
  rw [key_over fun b d => if_neg (paired_status b d).1]
  have hdocuments : ∀ ds : List PortalDocument, (ds.map fun d => atRisk (missingInBooks d)).sum = 0 :=
    fun ds => List.sum_eq_zero (by simp [atRisk, missingInBooks])
  rw [hdocuments, add_zero]
  rfl

/-- The bills and documents of one key leave no choice: figures found on both sides are all that one
side has, and that side is not the shorter one; and where some bills stay unfiled and some do not,
all carry the same tax. -/
def KeySettled (bills : List BookBill) (documents : List PortalDocument) : Prop :=
  (∀ b ∈ bills, ∀ d ∈ documents, b.figures = d.figures →
    Uniform BookBill.figures PortalDocument.figures bills documents b.figures) ∧
  (documents.length = 0 ∨ bills.length ≤ documents.length ∨
    ∀ x ∈ bills, ∀ y ∈ bills, x.taxPaise = y.taxPaise)

theorem KeySettled.counts (h : KeySettled bills documents) (hb : bills'.Perm bills)
    (hd : documents'.Perm documents) (status : MatchStatus) :
    keyTotal (count status) bills' documents' = keyTotal (count status) bills documents := by
  have hagree := agreements_perm h.1 hb hd
  cases status with
  | matched => rw [key_matched, key_matched, hagree]
  | amountMismatch =>
    rw [key_mismatch, key_mismatch, hagree, List.length_zip, List.length_zip, hb.length_eq,
      hd.length_eq]
  | missingIn2b => rw [key_unfiled, key_unfiled, hb.length_eq, hd.length_eq]
  | missingInBooks => rw [key_unbooked, key_unbooked, hb.length_eq, hd.length_eq]

theorem KeySettled.risk (h : KeySettled bills documents) (hb : bills'.Perm bills)
    (hd : documents'.Perm documents) :
    keyTotal atRisk bills' documents' = keyTotal atRisk bills documents := by
  rw [key_risk, key_risk, hd.length_eq, drop_sum_perm h.2 hb]

section
variable {alphabet : Alphabet} {bills bills' : List BookBill}
  {documents documents' : List PortalDocument}

/-- A weight whose keys do not see the order does not see it either. -/
theorem total_perm (w : Match → ℤ)
    (h : ∀ k B D, B.Perm (billsOf alphabet bills k) → D.Perm (documentsOf alphabet documents k) →
      keyTotal w B D =
        keyTotal w (billsOf alphabet bills k) (documentsOf alphabet documents k))
    (hb : bills'.Perm bills) (hd : documents'.Perm documents) :
    ((reconcile alphabet bills' documents').map w).sum =
      ((reconcile alphabet bills documents).map w).sum := by
  let keys := (bills.map (billKey alphabet) ++ documents.map (documentKey alphabet)).dedup
  have hbills : ∀ b ∈ bills, billKey alphabet b ∈ keys := fun b hb =>
    List.mem_dedup.mpr (List.mem_append_left _ (List.mem_map_of_mem hb))
  have hdocuments : ∀ d ∈ documents, documentKey alphabet d ∈ keys := fun d hd =>
    List.mem_dedup.mpr (List.mem_append_right _ (List.mem_map_of_mem hd))
  rw [total_eq alphabet w (List.nodup_dedup _) hbills hdocuments,
    total_eq alphabet w (List.nodup_dedup _) (fun b hmem => hbills b (hb.mem_iff.mp hmem))
      fun d hmem => hdocuments d (hd.mem_iff.mp hmem)]
  congr 1
  exact List.map_congr_left fun k _ => h k _ _ (hb.filter _) (hd.filter _)

/-- A weight that does not see the order does not see it within any key. -/
theorem key_perm (w : Match → ℤ)
    (h : ∀ bills' documents', bills'.Perm bills → documents'.Perm documents →
      ((reconcile alphabet bills' documents').map w).sum =
        ((reconcile alphabet bills documents).map w).sum)
    (hB : B.Perm (billsOf alphabet bills k)) (hD : D.Perm (documentsOf alphabet documents k)) :
    keyTotal w B D = keyTotal w (billsOf alphabet bills k) (documentsOf alphabet documents k) := by
  let others := bills.map (billKey alphabet) ++ documents.map (documentKey alphabet)
  have hkeys : (k :: others).dedup.Nodup := List.nodup_dedup _
  have hk : k ∈ (k :: others).dedup := List.mem_dedup.mpr List.mem_cons_self
  have hbills : ∀ b ∈ bills, billKey alphabet b ∈ (k :: others).dedup := fun b hb =>
    List.mem_dedup.mpr
      (List.mem_cons_of_mem _ (List.mem_append_left _ (List.mem_map_of_mem hb)))
  have hdocuments : ∀ d ∈ documents, documentKey alphabet d ∈ (k :: others).dedup := fun d hd =>
    List.mem_dedup.mpr
      (List.mem_cons_of_mem _ (List.mem_append_right _ (List.mem_map_of_mem hd)))
  have hbperm := front_perm hB
  have hdperm := front_perm hD
  have hsame := h _ _ hbperm hdperm
  rw [total_eq alphabet w hkeys hbills hdocuments,
    total_eq alphabet w hkeys (fun b hmem => hbills b (hbperm.mem_iff.mp hmem))
      (fun d hmem => hdocuments d (hdperm.mem_iff.mp hmem))] at hsame
  have honce := sum_differs_once hkeys hk ?_ hsame
  · rw [billsOf, documentsOf, front_key hB, front_key hD] at honce
    exact honce
  · intro k' hne
    rw [billsOf, documentsOf, front_other hB hne, front_other hD hne]
    rfl

/-- A match on its figures is reported in every order for a weight that does not see the order. -/
theorem settled_of_steady
    (hmatched : ∀ bills' documents', bills'.Perm bills → documents'.Perm documents →
      ((reconcile alphabet bills' documents').map (count .matched)).sum =
        ((reconcile alphabet bills documents).map (count .matched)).sum)
    (hrisk : ∀ bills' documents', bills'.Perm bills → documents'.Perm documents →
      ((reconcile alphabet bills' documents').map atRisk).sum =
        ((reconcile alphabet bills documents).map atRisk).sum) (k : String × String) :
    KeySettled (billsOf alphabet bills k) (documentsOf alphabet documents k) := by
  constructor
  · apply steady_iff.mp
    intro B D hB hD
    have hkey := key_perm _ hmatched hB hD
    rw [key_matched, key_matched] at hkey
    exact_mod_cast hkey
  · apply drop_sum_steady_iff.mp
    intro B hB
    have hkey := key_perm _ hrisk hB (.refl _)
    rwa [key_risk, key_risk] at hkey

end

/-- The reconciliation of the same bills and documents in any other order has as many matches of
each status and the same summary. -/
def OrderFree (alphabet : Alphabet) (bills : List BookBill) (documents : List PortalDocument) :
    Prop :=
  ∀ bills' documents', bills'.Perm bills → documents'.Perm documents →
    (∀ status, (ofStatus (reconcile alphabet bills' documents') status).length =
      (ofStatus (reconcile alphabet bills documents) status).length) ∧
    summary (reconcile alphabet bills' documents') = summary (reconcile alphabet bills documents)

section
variable {alphabet : Alphabet} {bills bills' : List BookBill}
  {documents documents' : List PortalDocument}

variable (alphabet documents documents') in
theorem books_tax_perm (hb : bills'.Perm bills) :
    ((reconcile alphabet bills' documents').map billTax).sum =
      ((reconcile alphabet bills documents).map billTax).sum := by
  have htax := sum_elim (·.bill) BookBill.taxPaise
  have hbooks' := htax (reconcile alphabet bills' documents')
  have hbooks := htax (reconcile alphabet bills documents)
  rw [reconcile_bills, (hb.map _).sum_eq] at hbooks'
  rw [reconcile_bills] at hbooks
  exact hbooks'.trans hbooks.symm

/-- The tax of the documents that GSTR-2B marks in one way. -/
theorem portal_tax_perm (marked : PortalDocument → Bool) (hd : documents'.Perm documents) :
    (((reconcile alphabet bills' documents').filter
        (fun m => m.document.any marked)).map documentTax).sum =
      (((reconcile alphabet bills documents).filter
        (fun m => m.document.any marked)).map documentTax).sum := by
  have hmarked : ∀ ms : List Match, ((ms.filter (fun m => m.document.any marked)).map documentTax).sum =
      ((ms.filterMap (·.document)).map fun d => if marked d then d.taxPaise else 0).sum := by
    intro ms
    have hfilter := sum_filter (fun m => m.document.any marked = true) documentTax ms
    simp only [Bool.decide_eq_true] at hfilter
    rw [← sum_elim, hfilter]
    congr 1
    apply List.map_congr_left
    intro m _
    cases hm : m.document <;> simp [documentTax, hm]
  rw [hmarked, hmarked]
  exact ((((reconcile_documents alphabet bills' documents').trans hd).trans
    (reconcile_documents alphabet bills documents).symm).map _).sum_eq

theorem order_free_iff :
    OrderFree alphabet bills documents ↔
      ∀ k, KeySettled (billsOf alphabet bills k) (documentsOf alphabet documents k) := by
  constructor
  · intro h
    apply settled_of_steady
    · intro bills' documents' hb hd
      rw [← status_count, ← status_count, (h bills' documents' hb hd).1]
    · intro bills' documents' hb hd
      rw [← risk_sum, ← risk_sum]
      exact congrArg Summary.itcAtRiskPaise (h bills' documents' hb hd).2
  · intro h bills' documents' hb hd
    have hcount : ∀ status, (ofStatus (reconcile alphabet bills' documents') status).length =
        (ofStatus (reconcile alphabet bills documents) status).length := by
      intro status
      have htotal := total_perm (count status) (fun k B D hB hD => (h k).counts hB hD status) hb hd
      rw [← status_count, ← status_count] at htotal
      exact_mod_cast htotal
    have hrisk := total_perm atRisk (fun k B D hB hD => (h k).risk hB hD) hb hd
    rw [← risk_sum, ← risk_sum] at hrisk
    have hbooks := books_tax_perm alphabet documents documents' hb
    have hallowed : (((reconcile alphabet bills' documents').filter allowedPer2b).map
        documentTax).sum = (((reconcile alphabet bills documents).filter allowedPer2b).map
        documentTax).sum := portal_tax_perm _ hd
    have hblocked : (((reconcile alphabet bills' documents').filter blockedBy2b).map
        documentTax).sum = (((reconcile alphabet bills documents).filter blockedBy2b).map
        documentTax).sum := portal_tax_perm _ hd
    refine ⟨hcount, ?_⟩
    unfold summary
    rw [hcount, hcount, hcount, hcount, hbooks, hrisk, hallowed, hblocked]

end

/-- A bill is reported as an amount mismatch, and a document of its key and figures is reported
elsewhere, in a match of the kind given. -/
def Overlooked (alphabet : Alphabet) (kind : Match → Prop) (ms : List Match) : Prop :=
  ∃ m ∈ ms, m.status = .amountMismatch ∧ ∃ b, m.bill = some b ∧
    ∃ m' ∈ ms, kind m' ∧ ∃ d, m'.document = some d ∧
      documentKey alphabet d = billKey alphabet b ∧ b.figures = d.figures

/-- The documents of one key whose figures some bill has are all alike. -/
def DocumentsAlike (bills : List BookBill) (documents : List PortalDocument) : Prop :=
  ∀ b ∈ bills, ∀ d ∈ documents, b.figures = d.figures → ∀ y ∈ documents, y.figures = b.figures

theorem KeySettled.perm (h : KeySettled bills documents) (hb : bills'.Perm bills)
    (hd : documents'.Perm documents) : KeySettled bills' documents' := by
  refine ⟨fun b hbmem d hdmem hfig => ?_, ?_⟩
  · exact (h.1 b (hb.mem_iff.mp hbmem) d (hd.mem_iff.mp hdmem) hfig).perm hb hd
  · rw [hb.length_eq, hd.length_eq]
    exact h.2.imp_right (.imp_right fun hsame x hx y hy =>
      hsame x (hb.mem_iff.mp hx) y (hb.mem_iff.mp hy))

theorem DocumentsAlike.perm (h : DocumentsAlike bills documents) (hb : bills'.Perm bills)
    (hd : documents'.Perm documents) : DocumentsAlike bills' documents' :=
  fun b hbmem d hdmem hfig y hy =>
    h b (hb.mem_iff.mp hbmem) d (hd.mem_iff.mp hdmem) hfig y (hd.mem_iff.mp hy)

section
variable {alphabet : Alphabet} {bills bills' : List BookBill}
  {documents documents' : List PortalDocument}

/-- A match is a bill beside a document of its key, a bill alone, or a document left over. -/
theorem match_cases (hm : m ∈ reconcile alphabet bills documents) :
    (∃ b ∈ bills, ∃ d ∈ documents, m = compare b d ∧ documentKey alphabet d = billKey alphabet b) ∨
      (∃ b ∈ bills, m = missingIn2b b) ∨
      ∃ d ∈ (matchUp (billKey alphabet) (documentKey alphabet) bills documents).2,
        m = missingInBooks d := by
  rcases List.mem_append.mp hm with hm | hm
  · obtain ⟨⟨b, o⟩, hpair, rfl⟩ := List.mem_map.mp hm
    have hb : b ∈ bills := by
      rw [← match_up_first (billKey alphabet) (documentKey alphabet) bills documents]
      exact List.mem_map_of_mem hpair
    cases o with
    | none => exact .inr (.inl ⟨b, hb, rfl⟩)
    | some d =>
      have hd : d ∈ documents := (match_up_perm _ _ bills documents).mem_iff.mp
        (List.mem_append_left _ (List.mem_filterMap.mpr ⟨_, hpair, rfl⟩))
      exact .inl ⟨b, hb, d, hd, rfl, match_up_key bills documents _ hpair d rfl⟩
  · obtain ⟨d, hd, rfl⟩ := List.mem_map.mp hm
    exact .inr (.inr ⟨d, hd, rfl⟩)

/-- A document is left over only where its key has more documents than bills. -/
theorem left_over_longer
    (hd : d ∈ (matchUp (billKey alphabet) (documentKey alphabet) bills documents).2) :
    (billsOf alphabet bills (documentKey alphabet d)).length <
      (documentsOf alphabet documents (documentKey alphabet d)).length := by
  have hkeyed := congrArg Prod.snd (match_up_filter (billKey alphabet)
    (documentKey alphabet) bills documents (documentKey alphabet d))
  rw [zip_left_eq] at hkeyed
  dsimp only at hkeyed
  have hmem : d ∈ (matchUp (billKey alphabet) (documentKey alphabet) bills documents).2.filter
      (fun d' => documentKey alphabet d' = documentKey alphabet d) :=
    List.mem_filter.mpr ⟨hd, by simp⟩
  rw [hkeyed] at hmem
  have hlen := List.length_pos_of_mem hmem
  rw [List.length_drop] at hlen
  exact Nat.lt_of_sub_pos hlen

theorem mem_bills_of (hb : b ∈ bills) : b ∈ billsOf alphabet bills (billKey alphabet b) :=
  List.mem_filter.mpr ⟨hb, by simp⟩

theorem mem_documents_of (hd : d ∈ documents) (hkey : documentKey alphabet d = k) :
    d ∈ documentsOf alphabet documents k :=
  List.mem_filter.mpr ⟨hd, by simpa using hkey⟩

/-- A bill reported as a mismatch is beside a document of its key with other figures. -/
theorem mismatch_cases (hm : m ∈ reconcile alphabet bills documents)
    (hstatus : m.status = .amountMismatch) (hb : m.bill = some b) :
    b ∈ bills ∧ ∃ d ∈ documents, documentKey alphabet d = billKey alphabet b ∧
      b.figures ≠ d.figures := by
  rcases match_cases hm with ⟨b', hb', d, hd, rfl, hkey⟩ | ⟨b', -, rfl⟩ | ⟨d, -, rfl⟩
  · rw [compare_bill] at hb
    cases hb
    refine ⟨hb', d, hd, hkey, fun hfig => ?_⟩
    rw [compare_status, if_pos hfig] at hstatus
    cases hstatus
  · cases hstatus
  · cases hstatus

/-- Where every key is settled, a document with a mismatched bill's figures is matched on them. -/
theorem none_overlooked
    (h : ∀ k, KeySettled (billsOf alphabet bills k) (documentsOf alphabet documents k)) :
    ¬ Overlooked alphabet (·.status ≠ .matched) (reconcile alphabet bills documents) := by
  rintro ⟨m, hm, hstatus, b, hb, m', hm', hother, d, hd, hkey, hfig⟩
  obtain ⟨hbmem, w, hw, hwkey, hwfig⟩ := mismatch_cases hm hstatus hb
  have hdmem : d ∈ documents := (reconcile_documents alphabet bills documents).mem_iff.mp
    (List.mem_filterMap.mpr ⟨m', hm', hd⟩)
  have huniform := (h (billKey alphabet b)).1 b (mem_bills_of hbmem) d (mem_documents_of hdmem hkey)
    hfig
  rcases huniform with ⟨hbills, hlen⟩ | ⟨hdocuments, -⟩
  · rcases match_cases hm' with ⟨b', hb', d', -, rfl, hkey'⟩ | ⟨b', -, rfl⟩ | ⟨d', hd', rfl⟩
    · rw [compare_document] at hd
      cases hd
      have hb'key : billKey alphabet b' = billKey alphabet b := hkey'.symm.trans hkey
      have hsame := hbills b' (hb'key ▸ mem_bills_of hb')
      exact hother (by rw [compare_status, if_pos (hsame.trans hfig)])
    · cases hd
    · cases hd
      have hlonger := left_over_longer hd'
      rw [hkey] at hlonger
      omega
  · exact hwfig (hdocuments w (mem_documents_of hw hwkey)).symm

theorem none_overlooked_at_all
    (h : ∀ k, DocumentsAlike (billsOf alphabet bills k) (documentsOf alphabet documents k)) :
    ¬ Overlooked alphabet (fun _ => True) (reconcile alphabet bills documents) := by
  rintro ⟨m, hm, hstatus, b, hb, m', hm', -, d, hd, hkey, hfig⟩
  obtain ⟨hbmem, w, hw, hwkey, hwfig⟩ := mismatch_cases hm hstatus hb
  have hdmem : d ∈ documents := (reconcile_documents alphabet bills documents).mem_iff.mp
    (List.mem_filterMap.mpr ⟨m', hm', hd⟩)
  exact hwfig (h _ b (mem_bills_of hbmem) d (mem_documents_of hdmem hkey) hfig w
    (mem_documents_of hw hwkey)).symm

/-- Some order puts a bill beside another document than the one with its figures. -/
theorem documents_alike
    (h : ∀ bills' documents', bills'.Perm bills → documents'.Perm documents →
      ¬ Overlooked alphabet (fun _ => True) (reconcile alphabet bills' documents'))
    (k : String × String) :
    DocumentsAlike (billsOf alphabet bills k) (documentsOf alphabet documents k) := by
  intro b hb d hd hfig y hy
  by_contra hne
  obtain ⟨hbmem, hbkey⟩ := List.mem_filter.mp hb
  obtain ⟨hdmem, hdkey⟩ := List.mem_filter.mp hd
  obtain ⟨hymem, hykey⟩ := List.mem_filter.mp hy
  rw [decide_eq_true_eq] at hbkey hdkey hykey
  obtain ⟨before, after, rfl⟩ := List.append_of_mem hbmem
  obtain ⟨before', after', rfl⟩ := List.append_of_mem hymem
  have hfirst : compare b y ∈ reconcile alphabet (b :: (before ++ after))
      (y :: (before' ++ after')) := first_paired (hykey.trans hbkey.symm)
  have hd' : d ∈ y :: (before' ++ after') := List.perm_middle.mem_iff.mp hdmem
  rw [← (reconcile_documents alphabet (b :: (before ++ after)) _).mem_iff,
    List.mem_filterMap] at hd'
  obtain ⟨m', hm', hmd⟩ := hd'
  refine h _ _ List.perm_middle.symm List.perm_middle.symm ⟨_, hfirst, ?_, b, compare_bill b y, m',
    hm', trivial, d, hmd, hdkey.trans hbkey.symm, hfig⟩
  rw [compare_status, if_neg (Ne.symm hne)]

end

/-- A reconciliation that is a partition whatever the order of its lists, and pairs no bill past a
document of its own figures. -/
structure Reconciles (alphabet : Alphabet) (kind : Match → Prop) (bills : List BookBill)
    (documents : List PortalDocument) : Prop where
  bills_once : (reconcile alphabet bills documents).filterMap (·.bill) = bills
  documents_once : ((reconcile alphabet bills documents).filterMap (·.document)).Perm documents
  differences : ((reconcile alphabet bills documents).map (·.differencePaise)).sum =
    (bills.map (·.taxPaise)).sum - (documents.map (·.taxPaise)).sum
  order_free : OrderFree alphabet bills documents
  none_overlooked : ∀ bills' documents', bills'.Perm bills → documents'.Perm documents →
    ¬ Overlooked alphabet kind (reconcile alphabet bills' documents')

/-- First come first served does what it should exactly where no key leaves it a choice. The first
part counts a document as available unless it is matched on its figures, the second always. -/
theorem reconciles_iff (alphabet : Alphabet) (bills : List BookBill)
    (documents : List PortalDocument) :
    (Reconciles alphabet (·.status ≠ .matched) bills documents ↔
      ∀ k, KeySettled (billsOf alphabet bills k) (documentsOf alphabet documents k)) ∧
    (Reconciles alphabet (fun _ => True) bills documents ↔
      ∀ k, KeySettled (billsOf alphabet bills k) (documentsOf alphabet documents k) ∧
        DocumentsAlike (billsOf alphabet bills k) (documentsOf alphabet documents k)) := by
  have hbuild : ∀ kind : Match → Prop,
      (∀ k, KeySettled (billsOf alphabet bills k) (documentsOf alphabet documents k)) →
      (∀ bills' documents', bills'.Perm bills → documents'.Perm documents →
        ¬ Overlooked alphabet kind (reconcile alphabet bills' documents')) →
      Reconciles alphabet kind bills documents := fun kind hsettled hnone =>
    ⟨reconcile_bills alphabet bills documents, reconcile_documents alphabet bills documents,
      reconcile_differences bills documents, order_free_iff.mpr hsettled, hnone⟩
  constructor
  · refine ⟨fun h => order_free_iff.mp h.order_free, fun h => hbuild _ h ?_⟩
    intro bills' documents' hb hd
    exact none_overlooked fun k => (h k).perm (hb.filter _) (hd.filter _)
  · constructor
    · intro h k
      exact ⟨order_free_iff.mp h.order_free k, documents_alike h.none_overlooked k⟩
    · intro h
      refine hbuild _ (fun k => (h k).1) fun bills' documents' hb hd => ?_
      exact none_overlooked_at_all fun k => (h k).2.perm (hb.filter _) (hd.filter _)

/-- An invoice and its amendment: the bill agrees with the one that is filed second. -/
theorem amendment_takes_place :
    ¬ ∀ bills documents, Reconciles ascii (·.status ≠ .matched) bills documents := by
  intro h
  have hcount := ((h [⟨"b", "27AAAPL1234C1Z5", "7", 100000, 18000, 0, 0⟩]
    [⟨"27AAAPL1234C1Z5", "7", 90000, 16200, 0, 0, "Y"⟩,
      ⟨"27AAAPL1234C1Z5", "7", 100000, 18000, 0, 0, "Y"⟩]).order_free _
    [⟨"27AAAPL1234C1Z5", "7", 100000, 18000, 0, 0, "Y"⟩,
      ⟨"27AAAPL1234C1Z5", "7", 90000, 16200, 0, 0, "Y"⟩] (.refl _) (.swap _ _ _)).1 .matched
  revert hcount
  decide +kernel

end Caflow.Gst.ItcMatching
