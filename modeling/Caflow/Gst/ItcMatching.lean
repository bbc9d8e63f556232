import Caflow.Lib.FirstCome
import Caflow.Text

namespace Caflow.Gst.ItcMatching
open FirstCome

/-- What the character tables of the run-time hold: the capitals of a character, and whether it is a
digit. -/
structure Alphabet where
  upper : Char → List Char
  isDigit : Char → Bool

/-- The tables for the characters below 128. -/
def ascii : Alphabet := ⟨fun c => [c.toUpper], Char.isDigit⟩

/-- One purchase bill, as the matcher needs it. -/
structure BookBill where
  billId : String
  supplierGstin : String
  billNo : String
  taxablePaise : ℤ
  igstPaise : ℤ
  cgstPaise : ℤ
  sgstPaise : ℤ

def BookBill.taxPaise (b : BookBill) : ℤ := b.igstPaise + b.cgstPaise + b.sgstPaise

/-- One GSTR-2B document, as the matcher needs it. -/
structure PortalDocument where
  supplierGstin : String
  documentNumber : String
  taxablePaise : ℤ
  igstPaise : ℤ
  cgstPaise : ℤ
  sgstPaise : ℤ
  itcAvailable : String

def PortalDocument.taxPaise (d : PortalDocument) : ℤ := d.igstPaise + d.cgstPaise + d.sgstPaise

inductive MatchStatus
  | matched | amountMismatch | missingIn2b | missingInBooks
  deriving DecidableEq

structure Match where
  status : MatchStatus
  billId : Option String
  document : Option PortalDocument
  bill : Option BookBill
  differencePaise : ℤ
  reason : String

/-- The figures the screen prints. -/
structure Summary where
  matchedCount : ℕ
  amountMismatchCount : ℕ
  missingIn2bCount : ℕ
  missingInBooksCount : ℕ
  booksTaxPaise : ℤ
  portalTaxPaise : ℤ
  itcAvailablePer2bPaise : ℤ
  itcBlockedBy2bPaise : ℤ
  itcAtRiskPaise : ℤ

section
variable (alphabet : Alphabet)

def isSeparator (c : Char) : Bool :=
  Text.isSpace c || c == '-' || c == '/' || c == '\\' || c == '.'

/-- The pieces between separators, in capitals. Separators in a row leave empty pieces. -/
def pieces (raw : String) : List (List Char) :=
  ((Text.strip raw).toList.flatMap alphabet.upper).splitOnP isSeparator

/-- A piece that is all digits loses its leading zeros. -/
def foldPiece (piece : List Char) : List Char :=
  if piece ≠ [] ∧ piece.all alphabet.isDigit then
    match piece.dropWhile (· = '0') with
    | [] => ['0']
    | c :: cs => c :: cs
  else piece

/-- The comparison key for an invoice or note number. -/
def normaliseDocumentNumber (raw : String) : String :=
  String.ofList ((pieces alphabet raw).map (foldPiece alphabet)).flatten

def foldGstin (gstin : String) : String :=
  String.ofList ((Text.strip gstin).toList.flatMap alphabet.upper)

def key (gstin number : String) : String × String :=
  (foldGstin alphabet gstin, normaliseDocumentNumber alphabet number)

def billKey (b : BookBill) : String × String := key alphabet b.supplierGstin b.billNo

def documentKey (d : PortalDocument) : String × String :=
  key alphabet d.supplierGstin d.documentNumber

end

def unfiledReason : String :=
  "The supplier has not filed this invoice. §16(2)(aa) makes the credit unavailable until they " ++
    "do — chase the supplier, and hold the credit back this month."

def unavailableReason : String :=
  "The document matches, but GSTR-2B marks the credit UNAVAILABLE — the figures agreeing does not " ++
    "make it claimable."

def unbookedReason : String :=
  "The supplier filed this and there is no bill for it in the books. The credit may be available " ++
    "and is not being claimed — chase the document, not the supplier."

def missingIn2b (bill : BookBill) : Match :=
  ⟨.missingIn2b, some bill.billId, none, some bill, bill.taxPaise, unfiledReason⟩

/-- A bill beside the document it took. -/
def compare (bill : BookBill) (doc : PortalDocument) : Match :=
  let diff := bill.taxPaise - doc.taxPaise
  if diff = 0 ∧ bill.taxablePaise = doc.taxablePaise then
    ⟨.matched, some bill.billId, some doc, some bill, 0,
      if doc.itcAvailable = "N" then unavailableReason else ""⟩
  else
    let reason :=
      -- the tax agrees and the taxable value does not
      if diff = 0 then
        "The tax agrees, but the taxable value does not: the bill carries " ++
          Text.rupeeText bill.taxablePaise ++ " and GSTR-2B " ++ Text.rupeeText doc.taxablePaise ++
          ". One of the two documents is wrong."
      else
        "The bill claims " ++ Text.rupeeText |diff| ++ " " ++ (if 0 < diff then "more" else "less") ++
          " tax than GSTR-2B carries. One of the two documents is wrong — the difference is the " ++
          "amount at risk."
    ⟨.amountMismatch, some bill.billId, some doc, some bill, diff, reason⟩

def missingInBooks (doc : PortalDocument) : Match :=
  ⟨.missingInBooks, none, some doc, none, -doc.taxPaise, unbookedReason⟩

/-- What a bill became. -/
def report (pair : BookBill × Option PortalDocument) : Match :=
  match pair.2 with
  | none => missingIn2b pair.1
  | some doc => compare pair.1 doc

/-- The books against the portal. Each bill takes the first document of its key not taken yet. -/
def reconcile (alphabet : Alphabet) (bills : List BookBill) (documents : List PortalDocument) :
    List Match :=
  let taken := matchUp (billKey alphabet) (documentKey alphabet) bills documents
  taken.1.map report ++ taken.2.map missingInBooks

def ofStatus (ms : List Match) (status : MatchStatus) : List Match :=
  ms.filter (·.status = status)

def documentTax (m : Match) : ℤ := m.document.elim 0 (·.taxPaise)

def billTax (m : Match) : ℤ := m.bill.elim 0 (·.taxPaise)

def allowedPer2b (m : Match) : Bool := m.document.any (·.itcAvailable ≠ "N")

def blockedBy2b (m : Match) : Bool := m.document.any (·.itcAvailable = "N")

def summary (ms : List Match) : Summary :=
  let allowed := ((ms.filter allowedPer2b).map documentTax).sum
  let blocked := ((ms.filter blockedBy2b).map documentTax).sum
  { matchedCount := (ofStatus ms .matched).length
    amountMismatchCount := (ofStatus ms .amountMismatch).length
    missingIn2bCount := (ofStatus ms .missingIn2b).length
    missingInBooksCount := (ofStatus ms .missingInBooks).length
    booksTaxPaise := (ms.map billTax).sum
    portalTaxPaise := allowed + blocked
    itcAvailablePer2bPaise := allowed
    itcBlockedBy2bPaise := blocked
    itcAtRiskPaise := ((ofStatus ms .missingIn2b).map billTax).sum }

section
variable {alphabet : Alphabet}

@[simp] theorem compare_bill (bill : BookBill) (doc : PortalDocument) :
    (compare bill doc).bill = some bill := by
  unfold compare
  dsimp only
  split <;> rfl

@[simp] theorem compare_document (bill : BookBill) (doc : PortalDocument) :
    (compare bill doc).document = some doc := by
  unfold compare
  dsimp only
  split <;> rfl

@[simp] theorem compare_difference (bill : BookBill) (doc : PortalDocument) :
    (compare bill doc).differencePaise = bill.taxPaise - doc.taxPaise := by
  unfold compare
  dsimp only
  split
  · rename_i h
    exact h.1.symm
  · rfl

@[simp] theorem report_bill (pair : BookBill × Option PortalDocument) :
    (report pair).bill = some pair.1 := by
  unfold report
  split
  · rfl
  · exact compare_bill _ _

@[simp] theorem report_document (pair : BookBill × Option PortalDocument) :
    (report pair).document = pair.2 := by
  unfold report
  split
  · rename_i h
    exact h.symm
  · rename_i h
    rw [compare_document, h]

@[simp] theorem report_difference (pair : BookBill × Option PortalDocument) :
    (report pair).differencePaise = pair.1.taxPaise - pair.2.elim 0 (·.taxPaise) := by
  unfold report
  split
  · rename_i h
    rw [h]
    exact (sub_zero _).symm
  · rename_i h
    rw [compare_difference, h]
    rfl

variable (alphabet) in
/-- Every bill is in one match, in order. -/
theorem reconcile_bills (bills : List BookBill) (documents : List PortalDocument) :
    (reconcile alphabet bills documents).filterMap (·.bill) = bills := by
  have hbills : ∀ pairs : List (BookBill × Option PortalDocument),
      (pairs.map report).filterMap (·.bill) = pairs.map Prod.fst := fun pairs => by
    rw [List.filterMap_map, ← List.filterMap_eq_map]
    exact List.filterMap_congr fun p _ => report_bill p
  have hrest : ∀ docs : List PortalDocument,
      (docs.map missingInBooks).filterMap (·.bill) = [] := fun docs => by
    rw [List.filterMap_map, List.filterMap_eq_nil_iff]
    exact fun _ _ => rfl
  unfold reconcile
  rw [List.filterMap_append, hbills, hrest, List.append_nil, match_up_first]

variable (alphabet) in
/-- Every document is in one match. -/
theorem reconcile_documents (bills : List BookBill) (documents : List PortalDocument) :
    ((reconcile alphabet bills documents).filterMap (·.document)).Perm documents := by
  have hpairs : ∀ pairs : List (BookBill × Option PortalDocument),
      (pairs.map report).filterMap (·.document) = pairs.filterMap Prod.snd := fun pairs => by
    rw [List.filterMap_map]
    exact List.filterMap_congr fun p _ => report_document p
  have hrest : ∀ docs : List PortalDocument,
      (docs.map missingInBooks).filterMap (·.document) = docs := fun docs => by
    rw [List.filterMap_map]
    exact List.filterMap_some
  unfold reconcile
  rw [List.filterMap_append, hpairs, hrest]
  exact match_up_perm _ _ bills documents

theorem difference_eq (hm : m ∈ reconcile alphabet bills documents) :
    m.differencePaise = billTax m - documentTax m := by
  rcases List.mem_append.mp hm with hm | hm
  · obtain ⟨pair, -, rfl⟩ := List.mem_map.mp hm
    rw [report_difference, billTax, documentTax, report_bill, report_document]
    rfl
  · obtain ⟨doc, -, rfl⟩ := List.mem_map.mp hm
    exact (zero_sub _).symm

theorem sum_elim (o : Match → Option α) (f : α → ℤ) (ms : List Match) :
    (ms.map fun m => (o m).elim 0 f).sum = ((ms.filterMap o).map f).sum := by
  induction ms with
  | nil => rfl
  | cons m ms ih =>
    cases hm : o m with
    | none => rw [List.map_cons, List.sum_cons, hm, ih, List.filterMap_cons_none hm]; exact zero_add _
    | some a =>
      rw [List.map_cons, List.sum_cons, hm, ih, List.filterMap_cons_some hm, List.map_cons,
        List.sum_cons]
      rfl

/-- The differences come to the books' tax less the portal's. -/
theorem reconcile_differences (bills : List BookBill) (documents : List PortalDocument) :
    ((reconcile alphabet bills documents).map (·.differencePaise)).sum =
      (bills.map (·.taxPaise)).sum - (documents.map (·.taxPaise)).sum := by
  have hbills := sum_elim (·.bill) (·.taxPaise) (reconcile alphabet bills documents)
  have hdocuments := sum_elim (·.document) (·.taxPaise) (reconcile alphabet bills documents)
  rw [reconcile_bills] at hbills
  rw [((reconcile_documents alphabet bills documents).map _).sum_eq] at hdocuments
  have hsplit : (reconcile alphabet bills documents).map billTax =
      (reconcile alphabet bills documents).map fun m => m.differencePaise + documentTax m :=
    List.map_congr_left fun m hm => by rw [difference_eq hm, sub_add_cancel]
  have htotal := congrArg List.sum hsplit
  rw [List.sum_map_add] at htotal
  rw [← hbills, ← hdocuments]
  exact eq_sub_of_add_eq htotal.symm

/-- The segments of a number, folded. Empty ones are ignored. -/
def segments (alphabet : Alphabet) (raw : String) : List (List Char) :=
  ((pieces alphabet raw).filter (· ≠ [])).map (foldPiece alphabet)

/-- The key is the segments run together. -/
theorem normalise_eq (raw : String) :
    normaliseDocumentNumber alphabet raw = String.ofList (segments alphabet raw).flatten := by
  have hflat : ∀ ps : List (List Char), (ps.map (foldPiece alphabet)).flatten =
      ((ps.filter (· ≠ [])).map (foldPiece alphabet)).flatten := by
    intro ps
    induction ps with
    | nil => rfl
    | cons p ps ih =>
      rw [List.map_cons, List.flatten_cons, ih]
      by_cases hp : p = []
      · subst hp
        rfl
      · rw [List.filter_cons_of_pos (by simpa using hp), List.map_cons, List.flatten_cons]
  rw [normaliseDocumentNumber, segments, hflat]

/-- Two numbers have the same letters and digits in a row, cut into segments at different places. -/
def CutElsewhere (alphabet : Alphabet) (a b : String) : Prop :=
  (segments alphabet a).flatten = (segments alphabet b).flatten ∧
    (segments alphabet a).map List.length ≠ (segments alphabet b).map List.length

theorem normalise_separates_iff (a b : String) :
    (normaliseDocumentNumber alphabet a = normaliseDocumentNumber alphabet b →
        segments alphabet a = segments alphabet b) ↔ ¬ CutElsewhere alphabet a b := by
  rw [normalise_eq, normalise_eq, String.ofList_inj, List.eq_iff_flatten_eq (L := segments alphabet a),
    CutElsewhere]
  constructor
  · rintro h ⟨hflat, hlengths⟩
    exact hlengths (h hflat).2
  · intro h hflat
    exact ⟨hflat, by_contra fun hlengths => h ⟨hflat, hlengths⟩⟩

/-- A bill beside a document is one of the supplier's, under a number with the same segments. -/
def PairsOneNumber (alphabet : Alphabet) (ms : List Match) : Prop :=
  ∀ m ∈ ms, ∀ b d, m.bill = some b → m.document = some d →
    segments alphabet b.billNo = segments alphabet d.documentNumber

theorem pair_of_match (hm : m ∈ reconcile alphabet bills documents) (hb : m.bill = some b)
    (hd : m.document = some d) :
    (b, some d) ∈ (matchUp (billKey alphabet) (documentKey alphabet) bills documents).1 := by
  rcases List.mem_append.mp hm with hm | hm
  · obtain ⟨pair, hpair, rfl⟩ := List.mem_map.mp hm
    rw [report_bill] at hb
    rw [report_document] at hd
    cases hb
    rw [← hd]
    exact hpair
  · obtain ⟨doc, -, rfl⟩ := List.mem_map.mp hm
    cases hb

theorem key_of_match (hm : m ∈ reconcile alphabet bills documents) (hb : m.bill = some b)
    (hd : m.document = some d) : documentKey alphabet d = billKey alphabet b :=
  match_up_key bills documents _ (pair_of_match hm hb hd) d rfl

/-- A bill and a document of one key that come first are paired. -/
theorem first_paired (h : documentKey alphabet d = billKey alphabet b) :
    compare b d ∈ reconcile alphabet (b :: bills) (d :: documents) := by
  have htaken : matchUp (billKey alphabet) (documentKey alphabet) (b :: bills)
      ([] ++ d :: documents) = _ := match_up_taken nofun h
  rw [List.nil_append] at htaken
  rw [reconcile, htaken]
  exact List.mem_cons_self

/-- Whatever the order, bills are paired with documents of the same number, exactly when no two of
one supplier are the same letters and digits cut at different places. -/
theorem pairs_one_number_iff (bills : List BookBill) (documents : List PortalDocument) :
    (∀ bills' documents', bills'.Perm bills → documents'.Perm documents →
        PairsOneNumber alphabet (reconcile alphabet bills' documents')) ↔
      ∀ b ∈ bills, ∀ d ∈ documents,
        foldGstin alphabet b.supplierGstin = foldGstin alphabet d.supplierGstin →
          ¬ CutElsewhere alphabet b.billNo d.documentNumber := by
  constructor
  · intro h b hb d hd hsupplier hcut
    obtain ⟨before, after, rfl⟩ := List.append_of_mem hb
    obtain ⟨before', after', rfl⟩ := List.append_of_mem hd
    have hsame : normaliseDocumentNumber alphabet b.billNo =
        normaliseDocumentNumber alphabet d.documentNumber := by
      rw [normalise_eq, normalise_eq, hcut.1]
    have hkey : documentKey alphabet d = billKey alphabet b := by
      rw [documentKey, billKey, key, key, hsame, hsupplier]
    have hone := h _ _ List.perm_middle.symm List.perm_middle.symm _ (first_paired hkey) b d
      (compare_bill b d) (compare_document b d)
    exact hcut.2 (congrArg (List.map List.length) hone)
  · intro h bills' documents' hbills hdocuments m hm b d hb hd
    have hkey := key_of_match hm hb hd
    have hbmem : b ∈ bills := by
      rw [← hbills.mem_iff, ← reconcile_bills alphabet bills' documents']
      exact List.mem_filterMap.mpr ⟨m, hm, hb⟩
    have hdmem : d ∈ documents := by
      rw [← hdocuments.mem_iff, ← (reconcile_documents alphabet bills' documents').mem_iff]
      exact List.mem_filterMap.mpr ⟨m, hm, hd⟩
    obtain ⟨hsupplier, hnumber⟩ := Prod.mk.inj hkey
    exact (normalise_separates_iff _ _).mpr (h b hbmem d hdmem hsupplier.symm) hnumber.symm

end

/-- The key separates numbers, and the reconciliation pairs none that differ, exactly as long as
nothing is cut at different places. -/
theorem numbers_kept_apart_iff (alphabet : Alphabet) :
    (∀ a b, (normaliseDocumentNumber alphabet a = normaliseDocumentNumber alphabet b →
        segments alphabet a = segments alphabet b) ↔ ¬ CutElsewhere alphabet a b) ∧
      ∀ bills documents,
        (∀ bills' documents', bills'.Perm bills → documents'.Perm documents →
          PairsOneNumber alphabet (reconcile alphabet bills' documents')) ↔
        ∀ b ∈ bills, ∀ d ∈ documents,
          foldGstin alphabet b.supplierGstin = foldGstin alphabet d.supplierGstin →
            ¬ CutElsewhere alphabet b.billNo d.documentNumber :=
  ⟨normalise_separates_iff, pairs_one_number_iff⟩

/-- Invoice 23 of series 1 and invoice 3 of series 12 have one key. -/
theorem series_joined :
    ¬ ∀ a b, normaliseDocumentNumber ascii a = normaliseDocumentNumber ascii b →
      segments ascii a = segments ascii b := by
  intro h
  have hsame := h "1/23" "12/3" (by decide +kernel)
  revert hsame
  decide +kernel

end Caflow.Gst.ItcMatching
