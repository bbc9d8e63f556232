import Caflow.Lib.GreedyMatching
import Caflow.Lib.SortByKey

namespace Caflow.Banking.Transfers

/-- A bank line as it is read: its dates are texts until `_as_date` reads them. -/
structure BankLine where
  id : String
  debitPaise : Option ℤ
  creditPaise : Option ℤ
  bankAccountId : Option String
  transactionDate : Option String
  matchStatus : Option String
  postedJournalId : Option String
  postedAt : Option String
  transferPairId : Option String
  matchedEntityId : Option String
  deriving DecidableEq

/-- A pair as it is suggested: the outflow is the primary side. -/
structure TransferPair where
  primaryId : String
  counterpartId : String
  amountPaise : ℤ
  primaryDate : Option ℤ
  counterpartDate : Option ℤ
  primaryAccountId : Option String
  counterpartAccountId : Option String
  primaryAlternatives : ℕ
  counterpartAlternatives : ℕ

def TransferPair.isUnambiguous (p : TransferPair) : Bool :=
  p.primaryAlternatives = 0 && p.counterpartAlternatives = 0

def scanPaddingWindows : ℤ := 2

/-- A text that is there and not blank. -/
def truthy (text : Option String) : Bool := text.getD "" ≠ ""

def BankLine.amount (l : BankLine) : ℤ := max (l.debitPaise.getD 0) (l.creditPaise.getD 0)

def BankLine.isCredit (l : BankLine) : Bool := 0 < l.creditPaise.getD 0

def BankLine.eligible (l : BankLine) : Bool :=
  !truthy l.postedJournalId && !truthy l.postedAt &&
    !(l.matchStatus = some "posted" || l.matchStatus = some "ignored") &&
    !truthy l.transferPairId && !truthy l.matchedEntityId

section
variable (asDate : String → Option ℤ)

/-- The day of a line, as the run-time reads its date. -/
def BankLine.day (l : BankLine) : Option ℤ := l.transactionDate.bind asDate

/-- The days between two lines. -/
def dayGap (out inb : BankLine) : Option ℤ :=
  (out.day asDate).bind fun d => (inb.day asDate).map fun d' => |d' - d|

/-- Whether two lines describe the same movement. -/
def canPair (out inb : BankLine) (windowDays : ℤ) : Bool :=
  if out.isCredit || !inb.isCredit then false
  else if out.amount ≤ 0 ∨ out.amount ≠ inb.amount then false
  else if out.bankAccountId = inb.bankAccountId then false
  else if !(truthy out.bankAccountId && truthy inb.bankAccountId) then false
  else (dayGap asDate out inb).any (· ≤ windowDays)

structure Candidate where
  gap : ℤ
  out : BankLine
  inb : BankLine
  deriving DecidableEq

def Candidate.outId (c : Candidate) : String := c.out.id

def Candidate.inId (c : Candidate) : String := c.inb.id

/-- The smallest gap first, then the ids. -/
abbrev Candidate.key (c : Candidate) : ℤ ×ₗ String ×ₗ String := toLex (c.gap, toLex (c.outId, c.inId))

/-- Every possible pairing. -/
def candidates (txns : List BankLine) (windowDays : ℤ) : List Candidate :=
  let rows := txns.filter BankLine.eligible
  (rows.filter (!·.isCredit)).flatMap fun out =>
    ((rows.filter (·.isCredit)).filter fun inb => canPair asDate out inb windowDays).map fun inb =>
      ⟨(dayGap asDate out inb).getD 0, out, inb⟩

def outOptions (cs : List Candidate) (id : String) : ℕ := cs.countP (·.outId = id)

def inOptions (cs : List Candidate) (id : String) : ℕ := cs.countP (·.inId = id)

/-- A pair's own pairing is not an alternative. -/
def toPair (cs : List Candidate) (c : Candidate) : TransferPair where
  primaryId := c.outId
  counterpartId := c.inId
  amountPaise := c.out.amount
  primaryDate := c.out.day asDate
  counterpartDate := c.inb.day asDate
  primaryAccountId := c.out.bankAccountId
  counterpartAccountId := c.inb.bankAccountId
  primaryAlternatives := outOptions cs c.outId - 1
  counterpartAlternatives := inOptions cs c.inId - 1

def detect (txns : List BankLine) (windowDays : ℤ) : List TransferPair :=
  let cs := candidates asDate txns windowDays
  (GreedyMatching.take Candidate.outId Candidate.inId []
    (cs.insertionSort fun a b => a.key ≤ b.key)).map (toPair asDate cs)

/-- The range of days a scan has to cover for some rows. -/
def scanWindow (rows : List BankLine) (windowDays : ℤ) : Option (ℤ × ℤ) :=
  let dates := rows.filterMap (BankLine.day asDate)
  match dates.min?, dates.max? with
  | some first, some last =>
    let reach := max 0 windowDays * scanPaddingWindows
    some (first - reach, last + reach)
  | _, _ => none

/-- The lines dated inside a range. -/
def inside (txns : List BankLine) (range : Option (ℤ × ℤ)) : List BankLine :=
  txns.filter fun l => match range, l.day asDate with
    | some (first, last), some d => first ≤ d && d ≤ last
    | _, _ => false

/-- The lines of a bank's statements, no two of them with one id. -/
structure Lines where
  lines : List BankLine
  distinct : (lines.map BankLine.id).Nodup

def Lines.inside (s : Lines) (range : Option (ℤ × ℤ)) : Lines :=
  ⟨Transfers.inside asDate s.lines range, s.distinct.sublist (List.filter_sublist.map _)⟩

/-- Two lines that are one movement between two accounts. -/
structure OneMovement (windowDays : ℤ) (out inb : BankLine) : Prop where
  eligible : out.eligible ∧ inb.eligible
  opposite : out.isCredit = false ∧ inb.isCredit = true
  amount : 0 < out.amount ∧ inb.amount = out.amount
  account : out.bankAccountId ≠ inb.bankAccountId ∧ truthy out.bankAccountId ∧ truthy inb.bankAccountId
  near : ∃ d d', out.day asDate = some d ∧ inb.day asDate = some d' ∧ |d' - d| ≤ windowDays

/-- A pair has a line on one of its sides. -/
def TransferPair.Touches (p : TransferPair) (l : BankLine) : Prop :=
  p.primaryId = l.id ∨ p.counterpartId = l.id

variable (windowDays : ℤ)

/-- How many lines of a statement a line could be paired with, as the money leaving. -/
def Lines.asOut (s : Lines) (id : String) : ℕ :=
  outOptions (candidates asDate s.lines windowDays) id

def Lines.asIn (s : Lines) (id : String) : ℕ :=
  inOptions (candidates asDate s.lines windowDays) id

/-- The scan for some of the lines. -/
def Lines.scanFor (s : Lines) (chosen : BankLine → Bool) : Lines :=
  s.inside asDate (scanWindow asDate (s.lines.filter chosen) windowDays)

/-- What detection is to find among the lines of a statement. -/
structure Detected (s : Lines) : Prop where
  sound : ∀ p ∈ detect asDate s.lines windowDays, ∃ out ∈ s.lines, ∃ inb ∈ s.lines,
    OneMovement asDate windowDays out inb ∧ p.primaryId = out.id ∧ p.counterpartId = inb.id ∧
      p.amountPaise = out.amount
  once : (detect asDate s.lines windowDays).Pairwise fun p q =>
    ∀ l ∈ s.lines, ¬ (p.Touches l ∧ q.Touches l)
  maximal : ∀ out ∈ s.lines, ∀ inb ∈ s.lines, OneMovement asDate windowDays out inb →
    ∃ p ∈ detect asDate s.lines windowDays, p.Touches out ∨ p.Touches inb
  anyOrder : ∀ lines : List BankLine, lines.Perm s.lines →
    detect asDate lines windowDays = detect asDate s.lines windowDays
  /-- A scan for some lines reports for each of them the unambiguous pair of the whole statement. -/
  scanned : ∀ (chosen : BankLine → Bool), ∀ r ∈ s.lines, chosen r → ∀ p : TransferPair,
    p.isUnambiguous → p.Touches r →
      (p ∈ detect asDate (s.scanFor asDate windowDays chosen).lines windowDays ↔
        p ∈ detect asDate s.lines windowDays)
  /-- What it reports for them has the numbers of alternatives of the whole statement. -/
  alternatives : ∀ (chosen : BankLine → Bool), ∀ r ∈ s.lines, chosen r →
    ∀ p ∈ detect asDate (s.scanFor asDate windowDays chosen).lines windowDays, p.Touches r →
      p.primaryAlternatives = s.asOut asDate windowDays p.primaryId - 1 ∧
        p.counterpartAlternatives = s.asIn asDate windowDays p.counterpartId - 1

end

section
variable {asDate : String → Option ℤ} {windowDays : ℤ} {s : Lines}

theorem can_pair_iff (out inb : BankLine) :
    (out.eligible ∧ inb.eligible ∧ canPair asDate out inb windowDays) ↔
      OneMovement asDate windowDays out inb := by
  constructor
  · rintro ⟨hout, hinb, h⟩
    unfold canPair at h
    split_ifs at h with hway hamount haccount hknown
    simp only [Bool.or_eq_true, Bool.not_eq_true', not_or, Bool.not_eq_true, Bool.not_eq_false] at hway
    simp only [not_or, not_le, not_not] at hamount
    simp only [Bool.not_eq_true', Bool.not_eq_false, Bool.and_eq_true] at hknown
    refine ⟨⟨hout, hinb⟩, hway, ⟨hamount.1, hamount.2.symm⟩, ⟨haccount, hknown⟩, ?_⟩
    obtain ⟨gap, hgap, hle⟩ := (Option.any_eq_true _ _).mp h
    obtain ⟨d, hd, hrest⟩ := Option.bind_eq_some_iff.mp hgap
    obtain ⟨d', hd', rfl⟩ := Option.map_eq_some_iff.mp hrest
    exact ⟨d, d', hd, hd', of_decide_eq_true hle⟩
  · intro h
    obtain ⟨d, d', hd, hd', hle⟩ := h.near
    refine ⟨h.eligible.1, h.eligible.2, ?_⟩
    unfold canPair dayGap
    rw [if_neg (by simp [h.opposite]), if_neg (by simp [h.amount]), if_neg h.account.1,
      if_neg (by simp [h.account]), hd, hd']
    simpa using hle

theorem mem_candidates {lines : List BankLine} {c : Candidate} :
    c ∈ candidates asDate lines windowDays ↔ c.out ∈ lines ∧ c.inb ∈ lines ∧
      OneMovement asDate windowDays c.out c.inb ∧ c.gap = (dayGap asDate c.out c.inb).getD 0 := by
  unfold candidates
  simp only [List.mem_flatMap, List.mem_map, List.mem_filter]
  constructor
  · rintro ⟨out, ⟨⟨hout, heout⟩, -⟩, inb, ⟨⟨⟨hinb, heinb⟩, -⟩, hpair⟩, rfl⟩
    exact ⟨hout, hinb, (can_pair_iff out inb).mp ⟨heout, heinb, hpair⟩, rfl⟩
  · rintro ⟨hout, hinb, hone, hgap⟩
    obtain ⟨heout, heinb, hpair⟩ := (can_pair_iff c.out c.inb).mpr hone
    obtain ⟨hdebit, hcredit⟩ := hone.opposite
    refine ⟨c.out, ⟨⟨hout, heout⟩, by simp [hdebit]⟩, c.inb, ⟨⟨⟨hinb, heinb⟩, hcredit⟩, hpair⟩, ?_⟩
    rw [← hgap]

theorem same_line (s : Lines) (ha : a ∈ s.lines) (hb : b ∈ s.lines) (hid : a.id = b.id) : a = b :=
  List.inj_on_of_nodup_map s.distinct ha hb hid

theorem candidates_nodup (s : Lines) : (candidates asDate s.lines windowDays).Nodup := by
  have hlines : s.lines.Nodup := List.Nodup.of_map _ s.distinct
  refine List.nodup_flatMap.mpr ⟨fun out _ => ?_, ?_⟩
  · refine List.Nodup.map ?_ (((hlines.filter _).filter _).filter _)
    intro inb inb' he
    exact congrArg Candidate.inb he
  · refine ((hlines.filter _).filter _).imp fun hne => ?_
    intro c hc hc'
    obtain ⟨_, _, rfl⟩ := List.mem_map.mp hc
    obtain ⟨_, _, he⟩ := List.mem_map.mp hc'
    exact hne (congrArg Candidate.out he).symm

/-- A candidate is known by its two ids. -/
theorem candidate_eq (hc : c ∈ candidates asDate s.lines windowDays)
    (hc' : c' ∈ candidates asDate s.lines windowDays) (hout : c.outId = c'.outId)
    (hin : c.inId = c'.inId) : c = c' := by
  obtain ⟨ho, hi, -, hgap⟩ := mem_candidates.mp hc
  obtain ⟨ho', hi', -, hgap'⟩ := mem_candidates.mp hc'
  obtain ⟨gap, out, inb⟩ := c
  obtain ⟨gap', out', inb'⟩ := c'
  obtain rfl : out = out' := same_line s ho ho' hout
  obtain rfl : inb = inb' := same_line s hi hi' hin
  simp only at hgap hgap'
  rw [hgap, hgap']

theorem candidate_keys (s : Lines) :
    ((candidates asDate s.lines windowDays).map Candidate.key).Nodup := by
  refine List.Nodup.map_on (fun c hc c' hc' hkey => ?_) (candidates_nodup s)
  refine candidate_eq hc hc' ?_ ?_
  · exact congrArg (fun k : ℤ ×ₗ String ×ₗ String => (ofLex (ofLex k).2).1) hkey
  · exact congrArg (fun k : ℤ ×ₗ String ×ₗ String => (ofLex (ofLex k).2).2) hkey

theorem candidates_perm (asDate : String → Option ℤ) (windowDays : ℤ) {lines : List BankLine}
    (h : lines.Perm s.lines) :
    (candidates asDate lines windowDays).Perm (candidates asDate s.lines windowDays) := by
  let s' : Lines := ⟨lines, ((h.map _).nodup_iff).mpr s.distinct⟩
  refine (List.perm_ext_iff_of_nodup (candidates_nodup s') (candidates_nodup s)).mpr fun c => ?_
  rw [mem_candidates, mem_candidates, h.mem_iff, h.mem_iff]

theorem detect_perm {lines : List BankLine} (h : lines.Perm s.lines) :
    detect asDate lines windowDays = detect asDate s.lines windowDays := by
  have hperm := candidates_perm asDate windowDays h
  have hkeys := ((hperm.map Candidate.key).nodup_iff).mpr (candidate_keys s)
  have hpair : toPair asDate (candidates asDate lines windowDays) =
      toPair asDate (candidates asDate s.lines windowDays) := by
    funext c
    unfold toPair outOptions inOptions
    rw [hperm.countP_eq, hperm.countP_eq]
  unfold detect
  simp only
  rw [SortByKey.sorted_eq hperm hkeys, hpair]

/-- The candidates that are taken up. -/
def taken (asDate : String → Option ℤ) (s : Lines) (windowDays : ℤ) : List Candidate :=
  GreedyMatching.take Candidate.outId Candidate.inId []
    ((candidates asDate s.lines windowDays).insertionSort fun a b => a.key ≤ b.key)

theorem mem_sorted {c : Candidate} :
    c ∈ ((candidates asDate s.lines windowDays).insertionSort fun a b => a.key ≤ b.key) ↔
      c ∈ candidates asDate s.lines windowDays :=
  (List.perm_insertionSort _ _).mem_iff

theorem taken_candidate (h : c ∈ taken asDate s windowDays) :
    c ∈ candidates asDate s.lines windowDays :=
  mem_sorted.mp ((GreedyMatching.take_sublist [] _).subset h)

theorem mem_detect {p : TransferPair} : p ∈ detect asDate s.lines windowDays ↔
    ∃ c ∈ taken asDate s windowDays, toPair asDate (candidates asDate s.lines windowDays) c = p :=
  List.mem_map

/-- No line is money leaving in one candidate and money arriving in another. -/
theorem sides_apart (hc : c ∈ candidates asDate s.lines windowDays)
    (hc' : c' ∈ candidates asDate s.lines windowDays) : c.outId ≠ c'.inId := by
  intro hid
  obtain ⟨ho, -, hone, -⟩ := mem_candidates.mp hc
  obtain ⟨-, hi, hone', -⟩ := mem_candidates.mp hc'
  have hsame : c.out = c'.inb := same_line s ho hi hid
  have hdebit := hone.opposite.1
  rw [hsame, hone'.opposite.2] at hdebit
  cases hdebit

theorem meets_iff (hc : c ∈ candidates asDate s.lines windowDays)
    (hc' : c' ∈ candidates asDate s.lines windowDays) :
    GreedyMatching.Meets Candidate.outId Candidate.inId c c' ↔
      c.outId = c'.outId ∨ c.inId = c'.inId := by
  have hcross := sides_apart hc hc'
  have hcross' := sides_apart hc' hc
  unfold GreedyMatching.Meets
  constructor
  · rintro (h | h | h | h)
    · exact .inl h
    · exact absurd h hcross
    · exact absurd h.symm hcross'
    · exact .inr h
  · rintro (h | h)
    · exact .inl h
    · exact .inr (.inr (.inr h))

theorem detect_sound {p : TransferPair} (h : p ∈ detect asDate s.lines windowDays) :
    ∃ out ∈ s.lines, ∃ inb ∈ s.lines, OneMovement asDate windowDays out inb ∧
      p.primaryId = out.id ∧ p.counterpartId = inb.id ∧ p.amountPaise = out.amount := by
  obtain ⟨c, hc, rfl⟩ := mem_detect.mp h
  obtain ⟨ho, hi, hone, -⟩ := mem_candidates.mp (taken_candidate hc)
  exact ⟨c.out, ho, c.inb, hi, hone, rfl, rfl, rfl⟩

theorem detect_once (s : Lines) : (detect asDate s.lines windowDays).Pairwise fun p q =>
    ∀ l ∈ s.lines, ¬ (p.Touches l ∧ q.Touches l) := by
  refine List.pairwise_map.mpr ((GreedyMatching.take_apart [] _).imp fun hapart => ?_)
  rintro l - ⟨hp | hp, hq | hq⟩
  · exact hapart (.inl (hp.trans hq.symm))
  · exact hapart (.inr (.inl (hp.trans hq.symm)))
  · exact hapart (.inr (.inr (.inl (hp.trans hq.symm))))
  · exact hapart (.inr (.inr (.inr (hp.trans hq.symm))))

theorem detect_maximal {out inb : BankLine} (hout : out ∈ s.lines) (hinb : inb ∈ s.lines)
    (hone : OneMovement asDate windowDays out inb) :
    ∃ p ∈ detect asDate s.lines windowDays, p.Touches out ∨ p.Touches inb := by
  let c : Candidate := ⟨(dayGap asDate out inb).getD 0, out, inb⟩
  have hc : c ∈ candidates asDate s.lines windowDays :=
    mem_candidates.mpr ⟨hout, hinb, hone, rfl⟩
  obtain ⟨c', hc', hmeets⟩ :=
    GreedyMatching.take_covers Candidate.outId Candidate.inId (mem_sorted.mpr hc)
  refine ⟨_, mem_detect.mpr ⟨c', hc', rfl⟩, ?_⟩
  rcases (meets_iff hc (taken_candidate hc')).mp hmeets with hid | hid
  · exact .inl (.inl hid.symm)
  · exact .inr (.inr hid.symm)

/-- The only one there is. -/
theorem only_one {l : List Candidate} {q : Candidate → Bool} (h : l.countP q ≤ 1) (ha : a ∈ l)
    (hqa : q a) (hb : b ∈ l) (hqb : q b) : a = b := by
  rw [List.countP_eq_length_filter] at h
  have hma : a ∈ l.filter q := List.mem_filter.mpr ⟨ha, hqa⟩
  have hmb : b ∈ l.filter q := List.mem_filter.mpr ⟨hb, hqb⟩
  rcases hl : l.filter q with - | ⟨c, rest⟩
  · simp [hl] at hma
  · rw [hl, List.length_cons] at h
    obtain rfl : rest = [] := List.eq_nil_of_length_eq_zero (by omega)
    rw [hl, List.mem_singleton] at hma hmb
    exact hma.trans hmb.symm

theorem unambiguous_iff (p : TransferPair) :
    p.isUnambiguous ↔ p.primaryAlternatives = 0 ∧ p.counterpartAlternatives = 0 := by
  simp [TransferPair.isUnambiguous]

/-- A candidate whose lines have no other candidate is taken up. -/
theorem unambiguous_taken (hc : c ∈ candidates asDate s.lines windowDays)
    (halone : (toPair asDate (candidates asDate s.lines windowDays) c).isUnambiguous) :
    c ∈ taken asDate s windowDays := by
  obtain ⟨hout, hin⟩ := (unambiguous_iff _).mp halone
  simp only [toPair] at hout hin
  refine GreedyMatching.take_alone (mem_sorted.mpr hc) fun c' hc' hmeets => ?_
  have hc' := mem_sorted.mp hc'
  rcases (meets_iff hc hc').mp hmeets with hid | hid
  · exact only_one (show outOptions _ c.outId ≤ 1 by omega) hc' (by simp [hid]) hc (by simp)
  · exact only_one (show inOptions _ c.inId ≤ 1 by omega) hc' (by simp [hid]) hc (by simp)

theorem scan_covers (windowDays : ℤ) {chosen : BankLine → Bool} (hr : r ∈ s.lines) (hchosen : chosen r)
    (hday : r.day asDate = some d) : ∃ first last,
      scanWindow asDate (s.lines.filter chosen) windowDays =
        some (first - max 0 windowDays * 2, last + max 0 windowDays * 2) ∧ first ≤ d ∧ d ≤ last := by
  have hmem : d ∈ (s.lines.filter chosen).filterMap (BankLine.day asDate) :=
    List.mem_filterMap.mpr ⟨r, List.mem_filter.mpr ⟨hr, hchosen⟩, hday⟩
  unfold scanWindow
  simp only [scanPaddingWindows]
  cases hmin : ((s.lines.filter chosen).filterMap (BankLine.day asDate)).min? with
  | none =>
    rw [List.min?_eq_none_iff.mp hmin] at hmem
    cases hmem
  | some first =>
    cases hmax : ((s.lines.filter chosen).filterMap (BankLine.day asDate)).max? with
    | none =>
      rw [List.max?_eq_none_iff.mp hmax] at hmem
      cases hmem
    | some last =>
      exact ⟨first, last, rfl, (List.min?_eq_some_iff.mp hmin).2 d hmem,
        (List.max?_eq_some_iff.mp hmax).2 d hmem⟩

/-- A line within two windows of a chosen one is scanned. -/
theorem scanned_of_near {chosen : BankLine → Bool} (hr : r ∈ s.lines) (hchosen : chosen r)
    (hday : r.day asDate = some d) (hl : l ∈ s.lines) (hday' : l.day asDate = some d')
    (hnear : |d' - d| ≤ windowDays * 2) :
    l ∈ (s.scanFor asDate windowDays chosen).lines := by
  obtain ⟨first, last, hscan, hfirst, hlast⟩ :=
    scan_covers windowDays hr hchosen hday
  have hreach : windowDays ≤ max 0 windowDays := le_max_right _ _
  have hbound := abs_le.mp hnear
  refine List.mem_filter.mpr ⟨hl, ?_⟩
  simp only [hscan, hday', Bool.and_eq_true, decide_eq_true_eq]
  omega

theorem scanned_sub {chosen : BankLine → Bool}
    (h : c ∈ candidates asDate (s.scanFor asDate windowDays chosen).lines windowDays) :
    c ∈ candidates asDate s.lines windowDays := by
  obtain ⟨ho, hi, hrest⟩ := mem_candidates.mp h
  exact mem_candidates.mpr ⟨(List.mem_filter.mp ho).1, (List.mem_filter.mp hi).1, hrest⟩

/-- A candidate is of a line. -/
def Candidate.Of (c : Candidate) (l : BankLine) : Prop := c.outId = l.id ∨ c.inId = l.id

theorem day_near (hr : r ∈ s.lines) (hc : c ∈ candidates asDate s.lines windowDays) (hof : c.Of r) :
    ∃ d d₁ d₂, r.day asDate = some d ∧ c.out.day asDate = some d₁ ∧ c.inb.day asDate = some d₂ ∧
      |d₁ - d| ≤ windowDays ∧ |d₂ - d| ≤ windowDays := by
  obtain ⟨ho, hi, hone, -⟩ := mem_candidates.mp hc
  obtain ⟨d₁, d₂, hd₁, hd₂, hnear⟩ := hone.near
  have hself : |(0 : ℤ)| ≤ windowDays := by
    rw [abs_zero]
    exact (abs_nonneg _).trans hnear
  rcases hof with hid | hid
  · obtain rfl : c.out = r := same_line s ho hr hid
    exact ⟨d₁, d₁, d₂, hd₁, hd₁, hd₂, by rwa [sub_self], hnear⟩
  · obtain rfl : c.inb = r := same_line s hi hr hid
    refine ⟨d₂, d₁, d₂, hd₂, hd₁, hd₂, ?_, by rwa [sub_self]⟩
    rwa [abs_sub_comm]

/-- Who competes for a side of a chosen line's candidate is scanned too: that is what the second
window is for. -/
theorem rival_scanned {chosen : BankLine → Bool} (hr : r ∈ s.lines) (hchosen : chosen r)
    (hc : c ∈ candidates asDate s.lines windowDays) (hof : c.Of r)
    (hc' : c' ∈ candidates asDate s.lines windowDays)
    (hrival : c'.outId = c.outId ∨ c'.inId = c.inId) :
    c' ∈ candidates asDate (s.scanFor asDate windowDays chosen).lines windowDays := by
  obtain ⟨d, d₁, d₂, hday, hd₁, hd₂, hnear₁, hnear₂⟩ := day_near hr hc hof
  obtain ⟨ho, hi, hrest⟩ := mem_candidates.mp hc
  obtain ⟨ho', hi', hone', hgap'⟩ := mem_candidates.mp hc'
  obtain ⟨e₁, e₂, he₁, he₂, hnear'⟩ := hone'.near
  have hboth : |e₁ - d| ≤ windowDays * 2 ∧ |e₂ - d| ≤ windowDays * 2 := by
    rw [abs_le] at hnear₁ hnear₂ hnear' ⊢
    rw [abs_le]
    rcases hrival with hid | hid
    · have hsame : c'.out = c.out := same_line s ho' ho hid
      have : e₁ = d₁ := Option.some.inj (he₁.symm.trans (hsame ▸ hd₁))
      omega
    · have hsame : c'.inb = c.inb := same_line s hi' hi hid
      have : e₂ = d₂ := Option.some.inj (he₂.symm.trans (hsame ▸ hd₂))
      omega
  exact mem_candidates.mpr ⟨scanned_of_near hr hchosen hday ho' he₁ hboth.1,
    scanned_of_near hr hchosen hday hi' he₂ hboth.2, hone', hgap'⟩

/-- What is counted among the scanned candidates is what is counted among all, where all that counts
is scanned. -/
theorem scanned_count {chosen : BankLine → Bool} {q : Candidate → Bool}
    (h : ∀ c ∈ candidates asDate s.lines windowDays, q c →
      c ∈ candidates asDate (s.scanFor asDate windowDays chosen).lines windowDays) :
    (candidates asDate (s.scanFor asDate windowDays chosen).lines windowDays).countP q =
      (candidates asDate s.lines windowDays).countP q := by
  set scanned := candidates asDate (s.scanFor asDate windowDays chosen).lines windowDays
  have hperm : scanned.Perm ((candidates asDate s.lines windowDays).filter (· ∈ scanned)) := by
    refine (List.perm_ext_iff_of_nodup (candidates_nodup _) ((candidates_nodup s).filter _)).mpr ?_
    intro c
    rw [List.mem_filter, decide_eq_true_eq]
    exact ⟨fun hc => ⟨scanned_sub hc, hc⟩, fun hc => hc.2⟩
  rw [hperm.countP_eq, List.countP_filter]
  refine List.countP_congr fun c hc => ?_
  simp only [Bool.and_eq_true, decide_eq_true_eq]
  exact ⟨fun hboth => hboth.1, fun hq => ⟨hq, h c hc hq⟩⟩

/-- A chosen line's candidate makes the same pair in the scan as on the whole statement. -/
theorem scanned_pair {chosen : BankLine → Bool} (hr : r ∈ s.lines) (hchosen : chosen r)
    (hc : c ∈ candidates asDate s.lines windowDays) (hof : c.Of r) :
    toPair asDate (candidates asDate (s.scanFor asDate windowDays chosen).lines windowDays) c =
      toPair asDate (candidates asDate s.lines windowDays) c := by
  have hout : outOptions (candidates asDate (s.scanFor asDate windowDays chosen).lines windowDays)
      c.outId = outOptions (candidates asDate s.lines windowDays) c.outId :=
    scanned_count fun c' hc' hid =>
      rival_scanned hr hchosen hc hof hc' (.inl (of_decide_eq_true hid))
  have hin : inOptions (candidates asDate (s.scanFor asDate windowDays chosen).lines windowDays)
      c.inId = inOptions (candidates asDate s.lines windowDays) c.inId :=
    scanned_count fun c' hc' hid =>
      rival_scanned hr hchosen hc hof hc' (.inr (of_decide_eq_true hid))
  unfold toPair
  rw [hout, hin]

theorem scanned_unambiguous {chosen : BankLine → Bool} (hr : r ∈ s.lines) (hchosen : chosen r)
    {p : TransferPair} (halone : p.isUnambiguous) (htouches : p.Touches r) :
    p ∈ detect asDate (s.scanFor asDate windowDays chosen).lines windowDays ↔
      p ∈ detect asDate s.lines windowDays := by
  constructor
  · intro h
    obtain ⟨c, hc, rfl⟩ := mem_detect.mp h
    have hall := scanned_sub (taken_candidate hc)
    rw [scanned_pair hr hchosen hall htouches] at halone ⊢
    exact mem_detect.mpr ⟨c, unambiguous_taken hall halone, rfl⟩
  · intro h
    obtain ⟨c, hc, rfl⟩ := mem_detect.mp h
    have hall := taken_candidate hc
    have hin := rival_scanned hr hchosen hall htouches hall (.inl rfl)
    rw [← scanned_pair hr hchosen hall htouches] at halone ⊢
    exact mem_detect.mpr ⟨c, unambiguous_taken hin halone, rfl⟩

/-- Detection is a maximal matching of what could be one movement, and a scan around some lines
answers for them as the whole statement does where there is nothing to choose. -/
theorem transfers_detected (asDate : String → Option ℤ) (windowDays : ℤ) (s : Lines) :
    Detected asDate windowDays s where
  sound _ hp := detect_sound hp
  once := detect_once s
  maximal _ hout _ hinb hone := detect_maximal hout hinb hone
  anyOrder _ hperm := detect_perm hperm
  scanned _ _ hr hchosen _ halone htouches := scanned_unambiguous hr hchosen halone htouches
  alternatives chosen r hr hchosen p hp htouches := by
    obtain ⟨c, hc, rfl⟩ := mem_detect.mp hp
    rw [scanned_pair hr hchosen (scanned_sub (taken_candidate hc)) htouches]
    exact ⟨rfl, rfl⟩

end

end Caflow.Banking.Transfers
