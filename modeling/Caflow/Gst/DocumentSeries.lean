import Caflow.Banking.CellText
import Caflow.Lib.Runs
import Caflow.Lib.SortByKey
import Caflow.Lib.Tally

namespace Caflow.Gst.DocumentSeries
open Runs
open Text (strip)
open Banking (isDigit)

/-- One document, for Table 13 only. -/
structure IssuedDocument where
  number : String
  isCancelled : Bool

/-- The series head and the sequence, or the whole number when it ends in no digit. A head never
spans a line. -/
def splitNumber (invoiceNo : String) : String × Option ℕ :=
  let trimmed := (strip invoiceNo).toList
  let seq := trimmed.rtakeWhile isDigit
  let head := trimmed.rdropWhile isDigit
  if seq = [] ∨ '\n' ∈ head then (strip invoiceNo, none)
  else (String.ofList head, some (Banking.number seq))

/-- Each head's sequences: the number as written, and whether it is cancelled. -/
abbrev Numbered := AList fun _ : String × ℕ => String × Bool

/-- The loop's body. A repeated number keeps its cancellation. -/
def record (acc : Numbered × List IssuedDocument) (d : IssuedDocument) :
    Numbered × List IssuedDocument :=
  match splitNumber d.number with
  | (_, none) => (acc.1, acc.2 ++ [d])
  | (head, some seq) =>
    let prior := acc.1.lookup (head, seq)
    (acc.1.insert (head, seq) (strip d.number, prior.any (·.2) || d.isCancelled), acc.2)

def collect (documents : List IssuedDocument) : Numbered × List IssuedDocument :=
  documents.foldl record (∅, [])

/-- A row of Table 13 before it is numbered. -/
structure Range where
  fromNumber : String
  toNumber : String
  totnum : ℕ
  cancel : ℕ

structure Row where
  num : ℕ
  fromNumber : String
  toNumber : String
  totnum : ℕ
  cancel : ℕ
  netIssue : ℤ

def heads (numbered : Numbered) : List String :=
  (numbered.keys.map Prod.fst).dedup.insertionSort (· ≤ ·)

def seqsOf (numbered : Numbered) (head : String) : List ℕ :=
  ((numbered.keys.filter (·.1 = head)).map Prod.snd).insertionSort (· ≤ ·)

/-- The number as written. A position in a run is one that was recorded. -/
def written (numbered : Numbered) (head : String) (seq : ℕ) : String :=
  (numbered.lookup (head, seq)).elim "" Prod.fst

def cancelledAt (numbered : Numbered) (head : String) (seq : ℕ) : Bool :=
  (numbered.lookup (head, seq)).any (·.2)

def numberedRange (numbered : Numbered) (head : String) (run : ℕ × ℕ) : Range where
  fromNumber := written numbered head run.1
  toNumber := written numbered head run.2
  totnum := run.2 - run.1 + 1
  cancel := (numbers run).countP (cancelledAt numbered head)

def unnumberedRange (d : IssuedDocument) : Range where
  fromNumber := strip d.number
  toNumber := strip d.number
  totnum := 1
  cancel := if d.isCancelled then 1 else 0

/-- One range a contiguous run of each series, then one a number that has no sequence. -/
def ranges (collected : Numbered × List IssuedDocument) : List Range :=
  (heads collected.1).flatMap (fun head =>
    (runs (seqsOf collected.1 head)).map (numberedRange collected.1 head)) ++
  collected.2.map unnumberedRange

def Range.row (r : Range) (i : ℕ) : Row :=
  ⟨i + 1, r.fromNumber, r.toNumber, r.totnum, r.cancel, (r.totnum : ℤ) - r.cancel⟩

def Row.range (r : Row) : Range := ⟨r.fromNumber, r.toNumber, r.totnum, r.cancel⟩

/-- The rows of Table 13 for one nature, numbered from 1. -/
def rangesFor (documents : List IssuedDocument) : List Row :=
  (ranges (collect documents)).mapIdx fun i r => r.row i

/-- The place of a number in its series. -/
def keyOf (number : String) : Option (String × ℕ) :=
  match splitNumber number with
  | (_, none) => none
  | (head, some seq) => some (head, seq)

theorem key_strip (number : String) : keyOf (strip number) = keyOf number := by
  unfold keyOf splitNumber
  rw [Text.strip_strip]

theorem record_unnumbered (h : keyOf d.number = none) (acc : Numbered × List IssuedDocument) :
    record acc d = (acc.1, acc.2 ++ [d]) := by
  unfold keyOf at h
  unfold record
  split
  · rfl
  · rename_i head seq hsplit
    rw [hsplit] at h
    cases h

theorem record_numbered (h : keyOf d.number = some k) (acc : Numbered × List IssuedDocument) :
    record acc d =
      (acc.1.insert k (strip d.number, (acc.1.lookup k).any (·.2) || d.isCancelled), acc.2) := by
  unfold keyOf at h
  unfold record
  split
  · rename_i head hsplit
    rw [hsplit] at h
    cases h
  · rename_i head seq hsplit
    rw [hsplit] at h
    cases h
    rfl

theorem collect_unnumbered (documents : List IssuedDocument) :
    (collect documents).2 = documents.filter (fun d => keyOf d.number = none) := by
  induction documents using List.reverseRecOn with
  | nil => rfl
  | append_singleton documents d ih =>
    have hstep : collect (documents ++ [d]) = record (collect documents) d := List.foldl_concat ..
    rw [hstep, List.filter_append]
    cases hk : keyOf d.number with
    | none =>
      rw [record_unnumbered hk, List.filter_cons_of_pos (by simpa using hk), ih]
      rfl
    | some k =>
      rw [record_numbered hk, List.filter_cons_of_neg (by simp [hk]), ih]
      exact (List.append_nil _).symm

/-- What is recorded at a place: a number written there, and whether any was cancelled. -/
structure Recorded (documents : List IssuedDocument) (k : String × ℕ) (entry : String × Bool) :
    Prop where
  written : ∃ d ∈ documents, keyOf d.number = some k ∧ strip d.number = entry.1
  cancelled : entry.2 = true ↔ ∃ d ∈ documents, keyOf d.number = some k ∧ d.isCancelled = true

theorem Recorded.more (h : Recorded documents k entry) (hd : keyOf d.number ≠ some k) :
    Recorded (documents ++ [d]) k entry := by
  obtain ⟨⟨d', hd', hk, hwritten⟩, hcancelled⟩ := h
  refine ⟨⟨d', List.mem_append_left _ hd', hk, hwritten⟩, hcancelled.trans ?_⟩
  constructor
  · rintro ⟨x, hx, hxk⟩
    exact ⟨x, List.mem_append_left _ hx, hxk⟩
  · rintro ⟨x, hx, hxk, hxc⟩
    rcases List.mem_append.mp hx with hx | hx
    · exact ⟨x, hx, hxk, hxc⟩
    · rw [List.mem_singleton.mp hx] at hxk
      exact absurd hxk hd

theorem collect_lookup (documents : List IssuedDocument) (k : String × ℕ) :
    ((collect documents).1.lookup k = none → ∀ d ∈ documents, keyOf d.number ≠ some k) ∧
      ∀ entry, (collect documents).1.lookup k = some entry → Recorded documents k entry := by
  induction documents using List.reverseRecOn with
  | nil => exact ⟨fun _ => nofun, nofun⟩
  | append_singleton documents d ih =>
    obtain ⟨hnone, hsome⟩ := ih
    have hstep : collect (documents ++ [d]) = record (collect documents) d := List.foldl_concat ..
    by_cases hd : keyOf d.number = some k
    · rw [hstep, record_numbered hd, AList.lookup_insert]
      refine ⟨nofun, ?_⟩
      rintro entry ⟨⟩
      refine ⟨⟨d, by simp, hd, rfl⟩, ?_⟩
      have hlast : (∃ x ∈ documents ++ [d], keyOf x.number = some k ∧ x.isCancelled = true) ↔
          (∃ x ∈ documents, keyOf x.number = some k ∧ x.isCancelled = true) ∨
            d.isCancelled = true := by
        simp only [List.mem_append, List.mem_singleton, or_and_right, exists_or, exists_eq_left, hd,
          true_and]
      rw [hlast]
      cases hprior : (collect documents).1.lookup k with
      | none =>
        have hno : ¬ ∃ x ∈ documents, keyOf x.number = some k ∧ x.isCancelled = true := by
          rintro ⟨x, hx, hxk, -⟩
          exact hnone hprior x hx hxk
        simp only [Option.any_none, Bool.false_or, hno, false_or]
      | some entry =>
        simp only [Option.any_some, Bool.or_eq_true, (hsome entry hprior).cancelled]
    · have hkept : (collect (documents ++ [d])).1.lookup k = (collect documents).1.lookup k := by
        rw [hstep]
        cases hk : keyOf d.number with
        | none => rw [record_unnumbered hk]
        | some k' =>
          rw [record_numbered hk]
          exact AList.lookup_insert_ne (by rintro rfl; exact hd hk)
      rw [hkept]
      refine ⟨fun h x hx => ?_, fun entry h => (hsome entry h).more hd⟩
      rcases List.mem_append.mp hx with hx | hx
      · exact hnone h x hx
      · rwa [List.mem_singleton.mp hx]

/-- Every number is recorded at its own place. -/
def InPlace (numbered : Numbered) : Prop :=
  ∀ k entry, numbered.lookup k = some entry → keyOf entry.1 = some k

theorem collect_in_place (documents : List IssuedDocument) : InPlace (collect documents).1 := by
  intro k entry h
  obtain ⟨d, -, hk, hwritten⟩ := ((collect_lookup documents k).2 entry h).written
  rw [← hwritten, key_strip, hk]

/-- The places that are taken are those of the documents. -/
theorem mem_places (documents : List IssuedDocument) (k : String × ℕ) :
    k ∈ (collect documents).1.keys ↔ ∃ d ∈ documents, keyOf d.number = some k := by
  obtain ⟨hnone, hsome⟩ := collect_lookup documents k
  rw [← AList.mem_keys, ← AList.lookup_isSome]
  constructor
  · intro h
    obtain ⟨entry, hentry⟩ := Option.isSome_iff_exists.mp h
    obtain ⟨d, hd, hk, -⟩ := (hsome entry hentry).written
    exact ⟨d, hd, hk⟩
  · rintro ⟨d, hd, hk⟩
    by_contra hne
    exact hnone (by simpa using hne) d hd hk

section
variable {numbered : Numbered}

theorem mem_heads : head ∈ heads numbered ↔ ∃ seq, (head, seq) ∈ numbered.keys := by
  rw [heads, List.mem_insertionSort, List.mem_dedup, List.mem_map]
  constructor
  · rintro ⟨⟨head, seq⟩, hk, rfl⟩
    exact ⟨seq, hk⟩
  · rintro ⟨seq, hk⟩
    exact ⟨_, hk, rfl⟩

theorem heads_nodup (numbered : Numbered) : (heads numbered).Nodup :=
  (List.perm_insertionSort _ _).nodup_iff.mpr (List.nodup_dedup _)

theorem mem_seqs : seq ∈ seqsOf numbered head ↔ (head, seq) ∈ numbered.keys := by
  rw [seqsOf, List.mem_insertionSort, List.mem_map]
  constructor
  · rintro ⟨⟨head', seq⟩, hk, rfl⟩
    obtain ⟨hmem, hhead⟩ := List.mem_filter.mp hk
    rw [decide_eq_true_eq] at hhead
    subst hhead
    exact hmem
  · intro hk
    exact ⟨(head, seq), List.mem_filter.mpr ⟨hk, by simp⟩, rfl⟩

theorem seqs_nodup (numbered : Numbered) (head : String) : (seqsOf numbered head).Nodup := by
  rw [seqsOf, (List.perm_insertionSort _ _).nodup_iff]
  apply List.Nodup.map_on _ (numbered.keys_nodup.filter _)
  rintro ⟨h, s⟩ hk ⟨h', s'⟩ hk' hs
  have hh : h = head := by simpa using (List.mem_filter.mp hk).2
  have hh' : h' = head := by simpa using (List.mem_filter.mp hk').2
  rw [hh, hh']
  exact congrArg _ hs

/-- The places head by head are all places. -/
theorem places_perm (numbered : Numbered) :
    ((heads numbered).flatMap fun head => numbered.keys.filter (·.1 = head)).Perm numbered.keys :=
  Tally.share_out (heads_nodup numbered) Prod.fst fun k hk => mem_heads.mpr ⟨k.2, hk⟩

theorem seqs_count (p : String → ℕ → Bool) (numbered : Numbered) (head : String) :
    (seqsOf numbered head).countP (p head) =
      (numbered.keys.filter (·.1 = head)).countP fun k => p k.1 k.2 := by
  rw [seqsOf, (List.perm_insertionSort _ _).countP_eq, List.countP_map]
  apply List.countP_congr
  intro k hk
  have hhead : k.1 = head := by simpa using (List.mem_filter.mp hk).2
  rw [← hhead]
  rfl

/-- A property of places holds as often over the series as over all places. -/
theorem count_by_head (p : String → ℕ → Bool) (numbered : Numbered) :
    ((heads numbered).map fun head => (seqsOf numbered head).countP (p head)).sum =
      numbered.keys.countP fun k => p k.1 k.2 := by
  rw [← (places_perm numbered).countP_eq, List.countP_flatMap]
  congr 1
  exact List.map_congr_left fun head _ => seqs_count p numbered head

end

theorem sum_flat_map (f : Range → ℕ) (g : String → List Range) (hs : List String) :
    ((hs.flatMap g).map f).sum = (hs.map fun head => ((g head).map f).sum).sum := by
  rw [List.map_flatMap, List.flatMap_def, List.sum_flatten, List.map_map]
  rfl

theorem totnum_sum (collected : Numbered × List IssuedDocument) :
    ((ranges collected).map (·.totnum)).sum = collected.1.keys.length + collected.2.length := by
  have hruns : ∀ head, (((runs (seqsOf collected.1 head)).map (numberedRange collected.1 head)).map
      (·.totnum)).sum = (seqsOf collected.1 head).length := by
    intro head
    rw [← runs_length, List.map_map]
    rfl
  have hall := count_by_head (fun _ _ => true) collected.1
  simp only [List.countP_true] at hall
  have hsingle : ∀ ds : List IssuedDocument, (ds.map ((·.totnum) ∘ unnumberedRange)).sum =
      ds.length := fun ds => by
    simp [Function.comp_def, unnumberedRange]
  rw [ranges, List.map_append, List.sum_append, sum_flat_map, List.map_map, hsingle]
  simp only [hruns, hall]

theorem cancel_sum (collected : Numbered × List IssuedDocument) :
    ((ranges collected).map (·.cancel)).sum =
      (collected.1.keys.countP fun k => cancelledAt collected.1 k.1 k.2) +
        collected.2.countP (·.isCancelled) := by
  have hruns : ∀ head, (((runs (seqsOf collected.1 head)).map (numberedRange collected.1 head)).map
      (·.cancel)).sum = (seqsOf collected.1 head).countP (cancelledAt collected.1 head) := by
    intro head
    rw [← runs_count, List.map_map]
    rfl
  rw [ranges, List.map_append, List.sum_append, sum_flat_map, List.map_map]
  simp only [hruns, count_by_head]
  congr 1
  exact sum_indicator (fun d : IssuedDocument => d.isCancelled = true) collected.2 |>.trans (by simp)

/-- A range holds the numbers of its series from one end to the other. One without a sequence holds
itself. -/
def Range.covers (r : Range) (number : String) : Bool :=
  match keyOf number with
  | none => r.fromNumber = strip number && r.toNumber = strip number
  | some (head, seq) =>
    match keyOf r.fromNumber, keyOf r.toNumber with
    | some (first, lo), some (last, hi) => first = head && last = head && (lo ≤ seq && seq ≤ hi)
    | _, _ => false

section
variable {numbered : Numbered}

theorem written_place (h : InPlace numbered) (hk : (head, seq) ∈ numbered.keys) :
    keyOf (written numbered head seq) = some (head, seq) := by
  obtain ⟨entry, hentry⟩ := Option.isSome_iff_exists.mp
    (AList.lookup_isSome.mpr (AList.mem_keys.mpr hk))
  rw [written, hentry]
  exact h _ _ hentry

/-- A run's range is from place to place of its series. -/
theorem range_places (h : InPlace numbered) (hrun : run ∈ runs (seqsOf numbered head)) :
    keyOf (numberedRange numbered head run).fromNumber = some (head, run.1) ∧
      keyOf (numberedRange numbered head run).toNumber = some (head, run.2) :=
  ⟨written_place h (mem_seqs.mp (ends_mem hrun).1), written_place h (mem_seqs.mp (ends_mem hrun).2)⟩

theorem covers_numbered (h : InPlace numbered) (hrun : run ∈ runs (seqsOf numbered head))
    (number : String) :
    (numberedRange numbered head run).covers number =
      (keyOf number).any fun k => head = k.1 && (run.1 ≤ k.2 && k.2 ≤ run.2) := by
  obtain ⟨hfrom, hto⟩ := range_places h hrun
  unfold Range.covers
  split
  · rename_i hnone
    rw [hnone]
    have hne : (numberedRange numbered head run).fromNumber ≠ strip number := by
      intro heq
      rw [heq, key_strip, hnone] at hfrom
      cases hfrom
    simp [hne]
  · rename_i head' seq hsome
    rw [hfrom, hto, hsome]
    simp

theorem covers_unnumbered (hd : keyOf d.number = none) (number : String) :
    (unnumberedRange d).covers number = (decide (keyOf number = none) && strip d.number = strip number) := by
  unfold Range.covers
  have hfrom : keyOf (unnumberedRange d).fromNumber = none := (key_strip d.number).trans hd
  split
  · rename_i hnone
    by_cases hsame : strip d.number = strip number
    · simp [hnone, unnumberedRange, hsame]
    · simp [hnone, unnumberedRange, hsame]
  · rename_i head seq hsome
    rw [hfrom]
    simp [hsome]

/-- How many ranges of the series hold a number: one if its place is taken. -/
theorem covered_numbered (h : InPlace numbered) (number : String) :
    ((heads numbered).flatMap fun head =>
        (runs (seqsOf numbered head)).map (numberedRange numbered head)).countP (·.covers number) =
      if (keyOf number).any (· ∈ numbered.keys) then 1 else 0 := by
  have hhead : ∀ head, ((runs (seqsOf numbered head)).map (numberedRange numbered head)).countP
        (·.covers number) =
      (runs (seqsOf numbered head)).countP fun run =>
        (keyOf number).any fun k => head = k.1 && (run.1 ≤ k.2 && k.2 ≤ run.2) := by
    intro head
    rw [List.countP_map]
    apply List.countP_congr
    intro run hrun
    rw [Function.comp_apply, covers_numbered h hrun]
  rw [List.countP_flatMap]
  refine (congrArg List.sum (List.map_congr_left fun head _ => hhead head)).trans ?_
  cases hkey : keyOf number with
  | none => simp
  | some k =>
    obtain ⟨head', seq⟩ := k
    have hone : ∀ head, ((runs (seqsOf numbered head)).countP fun run =>
          (some (head', seq)).any fun k => head = k.1 && (run.1 ≤ k.2 && k.2 ≤ run.2)) =
        if head' = head then (if seq ∈ seqsOf numbered head' then 1 else 0) else 0 := by
      intro head
      by_cases hsame : head' = head
      · subst hsame
        rw [if_pos rfl, ← run_once (seqs_nodup numbered head')]
        apply List.countP_congr
        intro run _
        simp
      · rw [if_neg hsame, List.countP_eq_zero]
        intro run _
        simp [Ne.symm hsame]
    rw [List.map_congr_left fun head _ => hone head, Tally.sum_single (heads_nodup numbered)]
    simp only [mem_seqs, Option.any_some, decide_eq_true_eq]
    by_cases hk : (head', seq) ∈ numbered.keys
    · rw [if_pos (mem_heads.mpr ⟨seq, hk⟩), if_pos hk]
    · simp [hk]

end

/-- How many rows hold a number. -/
theorem covered_count (documents : List IssuedDocument) (number : String) :
    (ranges (collect documents)).countP (·.covers number) =
      match keyOf number with
      | some k => if k ∈ (collect documents).1.keys then 1 else 0
      | none => (documents.filter (fun d => keyOf d.number = none)).countP
          fun d => strip d.number = strip number := by
  have hunnumbered : ((collect documents).2.map unnumberedRange).countP (·.covers number) =
      (documents.filter (fun d => keyOf d.number = none)).countP fun d =>
        decide (keyOf number = none) && strip d.number = strip number := by
    rw [List.countP_map, collect_unnumbered]
    apply List.countP_congr
    intro d hd
    have hk : keyOf d.number = none := by simpa using (List.mem_filter.mp hd).2
    rw [Function.comp_apply, covers_unnumbered hk]
  rw [ranges, List.countP_append, covered_numbered (collect_in_place documents), hunnumbered]
  cases hkey : keyOf number with
  | none => simp
  | some k => simp

/-- What Table 13 should declare of the documents issued. -/
structure Declares (documents : List IssuedDocument) : Prop where
  disjoint : (rangesFor documents).Pairwise fun r r' =>
    ∀ number, ¬ (r.range.covers number = true ∧ r'.range.covers number = true)
  once : ∀ d ∈ documents, (rangesFor documents).countP (·.range.covers d.number) = 1
  totnum : ((rangesFor documents).map (·.totnum)).sum =
    (documents.map (strip ·.number)).dedup.length
  cancel : ((rangesFor documents).map (·.cancel)).sum =
    ((documents.filter (·.isCancelled)).map (strip ·.number)).dedup.length
  issued : ∀ r ∈ rangesFor documents, (∃ d ∈ documents, strip d.number = r.fromNumber) ∧
    ∃ d ∈ documents, strip d.number = r.toNumber
  order_free : ∀ documents', documents'.Perm documents →
    ((rangesFor documents').map Row.range).Perm ((rangesFor documents).map Row.range)

def unnumberedOf (documents : List IssuedDocument) : List IssuedDocument :=
  documents.filter (fun d => keyOf d.number = none)

/-- No number without a sequence is repeated, and no place of a series is written in two ways. -/
structure WrittenOnce (documents : List IssuedDocument) : Prop where
  unnumbered : ((unnumberedOf documents).map (strip ·.number)).Nodup
  numbered : ∀ d ∈ documents, ∀ d' ∈ documents, ∀ k, keyOf d.number = some k →
    keyOf d'.number = some k → strip d.number = strip d'.number

@[simp] theorem map_range (documents : List IssuedDocument) :
    (rangesFor documents).map Row.range = ranges (collect documents) := by
  unfold rangesFor
  generalize ranges (collect documents) = rs
  exact List.ext_getElem (by simp) fun i h h' => by simp [Row.range, Range.row]

theorem range_sum (f : Range → ℕ) (documents : List IssuedDocument) :
    ((rangesFor documents).map fun r => f r.range).sum =
      ((ranges (collect documents)).map f).sum := by
  rw [← map_range, List.map_map]
  simp only [Function.comp_def]

theorem range_count (documents : List IssuedDocument) (number : String) :
    (rangesFor documents).countP (·.range.covers number) =
      (ranges (collect documents)).countP (·.covers number) := by
  rw [← map_range, List.countP_map]
  simp only [Function.comp_def]

theorem pairwise_of_count {p : β → α → Bool} {l : List α} (h : ∀ n, l.countP (p n) ≤ 1) :
    l.Pairwise fun a b => ∀ n, ¬ (p n a = true ∧ p n b = true) := by
  induction l with
  | nil => exact .nil
  | cons a l ih =>
    refine .cons (fun b hb n hboth => ?_) (ih fun n => ?_)
    · have hn := h n
      have hpos := List.countP_pos_iff.mpr ⟨b, hb, hboth.2⟩
      rw [List.countP_cons, if_pos hboth.1] at hn
      omega
    · have hn := h n
      rw [List.countP_cons] at hn
      omega

theorem count_text (ds : List IssuedDocument) (number : String) :
    ds.countP (fun d => strip d.number = number) = (ds.map (strip ·.number)).count number := by
  rw [List.count, List.countP_map]
  apply List.countP_congr
  intro d _
  simp

/-- Each document's number is in one row exactly when no number without a sequence is repeated. -/
theorem once_iff (documents : List IssuedDocument) :
    (∀ d ∈ documents, (rangesFor documents).countP (·.range.covers d.number) = 1) ↔
      ((unnumberedOf documents).map (strip ·.number)).Nodup := by
  have hcount : ∀ d ∈ unnumberedOf documents,
      (rangesFor documents).countP (·.range.covers d.number) =
        ((unnumberedOf documents).map (strip ·.number)).count (strip d.number) := by
    intro d hd
    have hk : keyOf d.number = none := by simpa using (List.mem_filter.mp hd).2
    rw [range_count, covered_count, hk, ← count_text]
    rfl
  constructor
  · intro h
    rw [List.nodup_iff_count_eq_one]
    intro w hw
    obtain ⟨d, hd, rfl⟩ := List.mem_map.mp hw
    rw [← hcount d hd]
    exact h d (List.mem_of_mem_filter hd)
  · intro h d hd
    cases hk : keyOf d.number with
    | none =>
      have hmem : d ∈ unnumberedOf documents := List.mem_filter.mpr ⟨hd, by simpa using hk⟩
      rw [hcount d hmem]
      exact List.count_eq_one_of_mem h (List.mem_map_of_mem hmem)
    | some k =>
      rw [range_count, covered_count, hk]
      exact if_pos ((mem_places documents k).mpr ⟨d, hd, hk⟩)

theorem covered_once (h : ((unnumberedOf documents).map (strip ·.number)).Nodup) (number : String) :
    (ranges (collect documents)).countP (·.covers number) ≤ 1 := by
  rw [covered_count]
  split
  · split_ifs <;> decide
  · have hle := List.nodup_iff_count_le_one.mp h (strip number)
    rw [← count_text] at hle
    exact hle

/-- The numbers in some series, as written. -/
def seriesNumbers (documents : List IssuedDocument) : Finset String :=
  (documents.map (strip ·.number)).toFinset.filter (keyOf · ≠ none)

theorem mem_series_numbers {documents : List IssuedDocument} {w : String} :
    w ∈ seriesNumbers documents ↔
      ∃ d ∈ documents, strip d.number = w ∧ keyOf d.number ≠ none := by
  rw [seriesNumbers, Finset.mem_filter, List.mem_toFinset, List.mem_map]
  constructor
  · rintro ⟨⟨d, hd, rfl⟩, hk⟩
    rw [key_strip] at hk
    exact ⟨d, hd, rfl, hk⟩
  · rintro ⟨d, hd, rfl, hk⟩
    rw [← key_strip] at hk
    exact ⟨⟨d, hd, rfl⟩, hk⟩

/-- The distinct numbers are those in some series and those in none. -/
theorem distinct_split (h : ((unnumberedOf documents).map (strip ·.number)).Nodup) :
    (documents.map (strip ·.number)).dedup.length =
      (seriesNumbers documents).card + (unnumberedOf documents).length := by
  have hrest : (documents.map (strip ·.number)).toFinset.filter (fun w => ¬ keyOf w ≠ none) =
      ((unnumberedOf documents).map (strip ·.number)).toFinset := by
    ext w
    rw [Finset.mem_filter, List.mem_toFinset, List.mem_toFinset, List.mem_map, List.mem_map,
      not_not]
    constructor
    · rintro ⟨⟨d, hd, rfl⟩, hk⟩
      rw [key_strip] at hk
      exact ⟨d, List.mem_filter.mpr ⟨hd, by simpa using hk⟩, rfl⟩
    · rintro ⟨d, hd, rfl⟩
      obtain ⟨hmem, hk⟩ := List.mem_filter.mp hd
      rw [key_strip]
      exact ⟨⟨d, hmem, rfl⟩, by simpa using hk⟩
  have hcard := List.toFinset_card_of_nodup h
  rw [List.length_map, ← hrest] at hcard
  rw [← List.card_toFinset, ← hcard]
  exact (Finset.card_filter_add_card_filter_not (keyOf · ≠ none)).symm

/-- The numbers in some series stand at the places taken. -/
theorem places_card (documents : List IssuedDocument) :
    ((seriesNumbers documents).image keyOf).card = (collect documents).1.keys.length := by
  have hplaces : (seriesNumbers documents).image keyOf =
      (collect documents).1.keys.toFinset.image some := by
    ext o
    rw [Finset.mem_image, Finset.mem_image]
    constructor
    · rintro ⟨w, hw, rfl⟩
      obtain ⟨d, hd, rfl, hne⟩ := mem_series_numbers.mp hw
      obtain ⟨k, hk⟩ := Option.ne_none_iff_exists'.mp hne
      exact ⟨k, List.mem_toFinset.mpr ((mem_places documents k).mpr ⟨d, hd, hk⟩),
        hk.symm.trans (key_strip _).symm⟩
    · rintro ⟨k, hk, rfl⟩
      obtain ⟨d, hd, hdk⟩ := (mem_places documents k).mp (List.mem_toFinset.mp hk)
      exact ⟨strip d.number, mem_series_numbers.mpr ⟨d, hd, rfl, by simp [hdk]⟩,
        (key_strip _).trans hdk⟩
  rw [hplaces, Finset.card_image_of_injective _ (Option.some_injective _),
    List.toFinset_card_of_nodup (AList.keys_nodup _)]

/-- Where the numbers without a sequence are not repeated, the total is that of the distinct numbers
exactly when no place is written in two ways. -/
theorem totnum_iff (h : ((unnumberedOf documents).map (strip ·.number)).Nodup) :
    ((rangesFor documents).map (·.totnum)).sum = (documents.map (strip ·.number)).dedup.length ↔
      ∀ d ∈ documents, ∀ d' ∈ documents, ∀ k, keyOf d.number = some k →
        keyOf d'.number = some k → strip d.number = strip d'.number := by
  have htotal := (range_sum Range.totnum documents).trans (totnum_sum (collect documents))
  rw [collect_unnumbered, ← places_card] at htotal
  have hrows : ((rangesFor documents).map (·.totnum)).sum =
      ((seriesNumbers documents).image keyOf).card + (unnumberedOf documents).length := htotal
  rw [hrows, distinct_split h, Nat.add_right_cancel_iff, Finset.card_image_iff]
  constructor
  · intro hinj d hd d' hd' k hk hk'
    have hmem : strip d.number ∈ seriesNumbers documents :=
      mem_series_numbers.mpr ⟨d, hd, rfl, by simp [hk]⟩
    have hmem' : strip d'.number ∈ seriesNumbers documents :=
      mem_series_numbers.mpr ⟨d', hd', rfl, by simp [hk']⟩
    exact hinj hmem hmem' (by rw [key_strip, key_strip, hk, hk'])
  · intro hone w hw w' hw' hkey
    obtain ⟨d, hd, rfl, hne⟩ := mem_series_numbers.mp hw
    obtain ⟨d', hd', rfl, -⟩ := mem_series_numbers.mp hw'
    obtain ⟨k, hk⟩ := Option.ne_none_iff_exists'.mp hne
    rw [key_strip, key_strip, hk] at hkey
    exact hone d hd d' hd' k hk hkey.symm

theorem WrittenOnce.filter (h : WrittenOnce documents) (p : IssuedDocument → Bool) :
    WrittenOnce (documents.filter p) := by
  constructor
  · exact ((List.filter_sublist.filter _).map _).nodup h.unnumbered
  · intro d hd d' hd' k hk hk'
    exact h.numbered d (List.mem_of_mem_filter hd) d' (List.mem_of_mem_filter hd') k hk hk'

/-- The places cancelled are those of the cancelled documents, so the cancel column counts as the
totals of those alone would. -/
theorem cancel_eq (documents : List IssuedDocument) :
    ((rangesFor documents).map (·.cancel)).sum =
      ((rangesFor (documents.filter (·.isCancelled))).map (·.totnum)).sum := by
  have hcancel := (range_sum Range.cancel documents).trans (cancel_sum (collect documents))
  have htotal := (range_sum Range.totnum (documents.filter (·.isCancelled))).trans
    (totnum_sum (collect (documents.filter (·.isCancelled))))
  rw [collect_unnumbered] at hcancel htotal
  have hplaces : ((collect documents).1.keys.filter fun k =>
        cancelledAt (collect documents).1 k.1 k.2).Perm
      (collect (documents.filter (·.isCancelled))).1.keys := by
    rw [List.perm_ext_iff_of_nodup ((AList.keys_nodup _).filter _) (AList.keys_nodup _)]
    intro k
    rw [List.mem_filter, mem_places, mem_places, cancelledAt]
    have hlookup := collect_lookup documents k
    cases hentry : (collect documents).1.lookup k with
    | none =>
      have hnone : ¬ ∃ d ∈ documents, keyOf d.number = some k := by
        rintro ⟨d, hd, hk⟩
        exact hlookup.1 hentry d hd hk
      refine iff_of_false (fun h => hnone h.1) ?_
      rintro ⟨d, hd, hk⟩
      exact hnone ⟨d, List.mem_of_mem_filter hd, hk⟩
    | some entry =>
      have hrecorded := hlookup.2 entry hentry
      obtain ⟨d, hd, hk, -⟩ := hrecorded.written
      rw [Option.any_some, hrecorded.cancelled, and_iff_right ⟨d, hd, hk⟩]
      constructor
      · rintro ⟨d, hd, hk, hc⟩
        exact ⟨d, List.mem_filter.mpr ⟨hd, hc⟩, hk⟩
      · rintro ⟨d, hd, hk⟩
        exact ⟨d, List.mem_of_mem_filter hd, hk, (List.mem_filter.mp hd).2⟩
  have hleft : (documents.filter (fun d => keyOf d.number = none)).countP (·.isCancelled) =
      ((documents.filter (·.isCancelled)).filter (fun d => keyOf d.number = none)).length := by
    rw [List.countP_eq_length_filter, List.filter_filter, List.filter_filter]
    simp only [Bool.and_comm]
  refine hcancel.trans (Eq.trans ?_ htotal.symm)
  rw [List.countP_eq_length_filter, hplaces.length_eq, hleft]

/-- The rows of the numbered series. -/
def seriesRanges (numbered : Numbered) : List Range :=
  (heads numbered).flatMap fun head =>
    (runs (seqsOf numbered head)).map (numberedRange numbered head)

/-- The same places with the same entries make the same rows. -/
theorem series_ranges_congr {numbered numbered' : Numbered}
    (hkeys : numbered.keys.Perm numbered'.keys)
    (hlookup : ∀ k, numbered.lookup k = numbered'.lookup k) :
    seriesRanges numbered = seriesRanges numbered' := by
  have hheads : heads numbered = heads numbered' := SortByKey.sorted_perm (hkeys.map _).dedup
  have hseqs : ∀ head, seqsOf numbered head = seqsOf numbered' head := fun head =>
    SortByKey.sorted_perm ((hkeys.filter _).map _)
  have hcancelled : ∀ head, cancelledAt numbered head = cancelledAt numbered' head := fun head =>
    funext fun seq => by rw [cancelledAt, cancelledAt, hlookup]
  have hrange : ∀ head, numberedRange numbered head = numberedRange numbered' head := by
    intro head
    funext run
    rw [numberedRange, numberedRange, written, written, written, written, hlookup, hlookup,
      hcancelled]
  unfold seriesRanges
  rw [hheads]
  simp only [hseqs, hrange]

theorem ranges_eq (documents : List IssuedDocument) :
    ranges (collect documents) =
      seriesRanges (collect documents).1 ++ (unnumberedOf documents).map unnumberedRange := by
  rw [ranges, collect_unnumbered]
  rfl

/-- Where no place is written in two ways, the order of the documents does not matter to it. -/
theorem series_ranges_perm (h : WrittenOnce documents) (hperm : documents'.Perm documents) :
    seriesRanges (collect documents').1 = seriesRanges (collect documents).1 := by
  have hmem : ∀ d, d ∈ documents' ↔ d ∈ documents := fun d => hperm.mem_iff
  apply series_ranges_congr
  · rw [List.perm_ext_iff_of_nodup (AList.keys_nodup _) (AList.keys_nodup _)]
    intro k
    simp only [mem_places, hmem]
  · intro k
    obtain ⟨hnone, hsome⟩ := collect_lookup documents k
    obtain ⟨hnone', hsome'⟩ := collect_lookup documents' k
    cases hentry : (collect documents).1.lookup k with
    | none =>
      by_contra hne
      obtain ⟨entry, hentry'⟩ := Option.ne_none_iff_exists'.mp hne
      obtain ⟨d, hd, hk, -⟩ := (hsome' entry hentry').written
      exact hnone hentry d ((hmem d).mp hd) hk
    | some entry =>
      have hrecorded := hsome entry hentry
      obtain ⟨d, hd, hk, hwritten⟩ := hrecorded.written
      cases hentry' : (collect documents').1.lookup k with
      | none => exact absurd hk (hnone' hentry' d ((hmem d).mpr hd))
      | some entry' =>
        have hrecorded' := hsome' entry' hentry'
        obtain ⟨d', hd', hk', hwritten'⟩ := hrecorded'.written
        have hnumber := h.numbered d hd d' ((hmem d').mp hd') k hk hk'
        have hcancelled : entry'.2 = entry.2 := by
          rw [Bool.eq_iff_iff, hrecorded.cancelled, hrecorded'.cancelled]
          simp only [hmem]
        have hnumbers : entry'.1 = entry.1 := hwritten'.symm.trans (hnumber.symm.trans hwritten)
        exact congrArg some (Prod.ext hnumbers hcancelled)

theorem written_issued {documents : List IssuedDocument} {numbered : Numbered}
    (h : ∀ k entry, numbered.lookup k = some entry → ∃ d ∈ documents, strip d.number = entry.1)
    (hk : (head, seq) ∈ numbered.keys) :
    ∃ d ∈ documents, strip d.number = written numbered head seq := by
  obtain ⟨entry, hentry⟩ := Option.isSome_iff_exists.mp
    (AList.lookup_isSome.mpr (AList.mem_keys.mpr hk))
  rw [written, hentry]
  exact h _ entry hentry

theorem range_issued (hr : r ∈ ranges (collect documents)) :
    (∃ d ∈ documents, strip d.number = r.fromNumber) ∧
      ∃ d ∈ documents, strip d.number = r.toNumber := by
  have hissued : ∀ k entry, (collect documents).1.lookup k = some entry →
      ∃ d ∈ documents, strip d.number = entry.1 := by
    intro k entry hentry
    obtain ⟨d, hd, -, hnumber⟩ := ((collect_lookup documents k).2 entry hentry).written
    exact ⟨d, hd, hnumber⟩
  rw [ranges_eq] at hr
  rcases List.mem_append.mp hr with hr | hr
  · obtain ⟨head, -, hrange⟩ := List.mem_flatMap.mp hr
    obtain ⟨run, hrun, rfl⟩ := List.mem_map.mp hrange
    obtain ⟨hlo, hhi⟩ := ends_mem hrun
    exact ⟨written_issued hissued (mem_seqs.mp hlo), written_issued hissued (mem_seqs.mp hhi)⟩
  · obtain ⟨d, hd, rfl⟩ := List.mem_map.mp hr
    have hmem := List.mem_of_mem_filter hd
    exact ⟨⟨d, hmem, rfl⟩, d, hmem, rfl⟩

theorem declares_of_written_once (h : WrittenOnce documents) : Declares documents where
  disjoint := by
    apply pairwise_of_count
    intro number
    rw [range_count]
    exact covered_once h.unnumbered number
  once := (once_iff documents).mpr h.unnumbered
  totnum := (totnum_iff h.unnumbered).mpr h.numbered
  cancel := by
    have hcancelled := h.filter (·.isCancelled)
    rw [cancel_eq]
    exact (totnum_iff hcancelled.unnumbered).mpr hcancelled.numbered
  issued := by
    intro r hr
    have hrange : r.range ∈ ranges (collect documents) := by
      rw [← map_range]
      exact List.mem_map_of_mem hr
    exact range_issued hrange
  order_free := by
    intro documents' hperm
    rw [map_range, map_range, ranges_eq, ranges_eq, series_ranges_perm h hperm]
    exact ((hperm.filter _).map _).append_left _

theorem written_once_of_declares (h : Declares documents) : WrittenOnce documents :=
  have hunnumbered := (once_iff documents).mp h.once
  ⟨hunnumbered, (totnum_iff hunnumbered).mp h.totnum⟩

theorem reverse_short {xs : List α} (hnodup : xs.Nodup) (hsame : xs.reverse = xs) :
    xs.length ≤ 1 := by
  cases xs with
  | nil => exact Nat.zero_le _
  | cons x xs =>
    cases xs using List.reverseRecOn with
    | nil => exact le_rfl
    | append_singleton xs y _ =>
      rw [List.reverse_cons, List.reverse_append, List.reverse_singleton] at hsame
      have hends : y = x := (List.cons.inj hsame).1
      subst hends
      exact absurd (List.mem_append_right xs List.mem_cons_self) (List.nodup_cons.mp hnodup).1

/-- Table 13 declares what was issued exactly when no number without a sequence is repeated and no
place of a series is written in two ways. Its rows stand in one order, numbered alike, when there is
besides no more than one number without a sequence. -/
theorem declares_iff (documents : List IssuedDocument) :
    (Declares documents ↔ WrittenOnce documents) ∧
      ((Declares documents ∧ ∀ documents', documents'.Perm documents →
          rangesFor documents' = rangesFor documents) ↔
        WrittenOnce documents ∧ (unnumberedOf documents).length ≤ 1) := by
  refine ⟨⟨written_once_of_declares, declares_of_written_once⟩, ?_⟩
  constructor
  · rintro ⟨hdeclares, horder⟩
    have hwritten := written_once_of_declares hdeclares
    refine ⟨hwritten, ?_⟩
    have hsame := congrArg (List.map Row.range) (horder _ documents.reverse_perm)
    rw [map_range, map_range, ranges_eq, ranges_eq,
      series_ranges_perm hwritten documents.reverse_perm, List.append_cancel_left_eq] at hsame
    have hnumbers := congrArg (List.map Range.fromNumber) hsame
    rw [List.map_map, List.map_map, unnumberedOf, List.filter_reverse, List.map_reverse] at hnumbers
    have hshort := reverse_short hwritten.unnumbered hnumbers
    rwa [List.length_map] at hshort
  · rintro ⟨hwritten, hshort⟩
    refine ⟨declares_of_written_once hwritten, fun documents' hperm => ?_⟩
    have hsame : unnumberedOf documents' = unnumberedOf documents := by
      have hfiltered : (unnumberedOf documents').Perm (unnumberedOf documents) := hperm.filter _
      cases hds : unnumberedOf documents with
      | nil => rw [hds] at hfiltered; exact hfiltered.eq_nil
      | cons d ds =>
        rw [hds, List.length_cons] at hshort
        obtain rfl : ds = [] := List.eq_nil_of_length_eq_zero (by omega)
        rw [hds] at hfiltered
        exact List.perm_singleton.mp hfiltered
    unfold rangesFor
    rw [ranges_eq, ranges_eq, series_ranges_perm hwritten hperm, hsame]

/-- Two invoices, numbered 7 and 07: Table 13 has one. -/
theorem padded_number_lost : ¬ ∀ documents, Declares documents := by
  intro h
  have htotal := (h [⟨"INV-7", false⟩, ⟨"INV-07", false⟩]).totnum
  revert htotal
  decide +kernel

end Caflow.Gst.DocumentSeries
