import Caflow.Accounting.Kernel

namespace Caflow.Accounting.Kernel.Reversal
open Text Interrupted

/-- A line with its debit and credit exchanged. -/
def swap (line : JournalLine) : JournalLine := ⟨line.account, line.creditPaise, line.debitPaise⟩

def reversalReference (entryId : String) : String :=
  "REV-" ++ upper (String.ofList (entryId.toList.take 8))

/-- What is posted against an entry. The read of its lines does not page. -/
def reversalPosting (original : Entry) (reversalDate : String) : Posting where
  entryDate := reversalDate
  referenceNo := reversalReference original.id
  entryType := if original.entryType = "" then "Journal" else original.entryType
  lines := (unpaged original.lines).map swap
  isPosted := true
  sourceType := original.sourceType
  sourceId := original.sourceId
  mustMatch := none

def reverseEntry (ground : Ground) (link : Link) (entries : List Entry)
    (entryId reversalDate : String) : Except Failure String × List Entry :=
  match entries.find? (fun e => e.id = entryId) with
  | none => (.error (.http 404 "Journal entry not found"), entries)
  | some original =>
    if !original.isPosted then
      (.error (.http 422 "Only posted journal entries can be reversed"), entries)
    else if original.reversalOf ≠ none then
      (.error (.http 409 "This entry is itself a reversal — cannot reverse a reversal"), entries)
    else if entries.any (fun e => e.reversalOf = some entryId) then
      (.error (.http 409 ("Journal " ++ entryId ++ " has already been reversed")), entries)
    else if unpaged original.lines = [] then
      (.error (.http 422 "Cannot reverse a journal entry with no lines"), entries)
    else createJournal ground link entries (reversalPosting original reversalDate) (some entryId)

/-- The entries of a client, and the reversals that were reported: of which entry, and by which. -/
structure Journals where
  entries : List Entry
  reported : List (String × String)
  deriving DecidableEq

inductive Call where
  | post (link : Link) (posting : Posting)
  | reverse (link : Link) (entryId reversalDate : String)

def step (ground : Ground) (journals : Journals) : Call → Journals
  | .post link posting =>
    ⟨(createJournal ground link journals.entries posting none).2, journals.reported⟩
  | .reverse link entryId reversalDate =>
    let answer := reverseEntry ground link journals.entries entryId reversalDate
    match answer.1 with
    | .ok id => ⟨answer.2, journals.reported ++ [(entryId, id)]⟩
    | .error _ => ⟨answer.2, journals.reported⟩

def run (ground : Ground) (calls : List Call) : Journals :=
  calls.foldl (step ground) ⟨[], []⟩

/-- A reversal the function and the kernel go on with: the entry may be reversed, the date is
open, and what is read of its lines balances and moves something. -/
structure Proceeds (ground : Ground) (entries : List Entry) (original : Entry)
    (reversalDate : String) : Prop where
  found : original ∈ entries
  isPosted : original.isPosted = true
  notReversal : original.reversalOf = none
  unreversed : ∀ e ∈ entries, e.reversalOf ≠ some original.id
  accepted : ground.refusal reversalDate = none
  sound : (reversalPosting original reversalDate).Sound

/-- The kernel does not both fail to look and fail to write. -/
def Answers (link : Link) : Prop := link.readable = true ∨ link.written = .done

def Writes (link : Link) : Prop := ∀ raised, link.written ≠ .refused raised

def NumberFree (entries : List Entry) (entryId reversalDate : String) : Prop :=
  ∀ e ∈ entries, ¬ e.LiveAt (reversalReference entryId) reversalDate

/-- A reversal that goes on finds its number free on its date, and the entry's lines in one read. -/
def Clear (ground : Ground) (entries : List Entry) : Call → Prop
  | .post _ _ => True
  | .reverse link entryId reversalDate =>
    ∀ original, Proceeds ground entries original reversalDate → original.id = entryId →
      (Answers link → NumberFree entries entryId reversalDate) ∧
        (Writes link → NumberFree entries entryId reversalDate →
          original.lines.length ≤ rowCap)

/-- Every call of a run is clear where it is made. -/
def ClearRun (ground : Ground) (journals : Journals) : List Call → Prop
  | [] => True
  | call :: calls =>
    Clear ground journals.entries call ∧ ClearRun ground (step ground journals call) calls

/-- An entry and its reversal. -/
structure Reverses (reversal original : Entry) : Prop where
  names : reversal.reversalOf = some original.id
  lines : reversal.lines = original.lines.map swap

structure Faithful (ground : Ground) (journals : Journals) : Prop where
  balanced : Balanced journals.entries
  numbered : ∀ i, (h : i < journals.entries.length) → journals.entries[i].id = ground.ids i
  reverses : ∀ e ∈ journals.entries, e.reversalOf ≠ none →
    ∃ original ∈ journals.entries, Reverses e original
  once : ∀ e ∈ journals.entries, ∀ e' ∈ journals.entries, e.reversalOf ≠ none →
    e.reversalOf = e'.reversalOf → e.id = e'.id
  reported : ∀ p ∈ journals.reported, ∃ e ∈ journals.entries, e.id = p.2 ∧ e.reversalOf = some p.1

section
variable {ground : Ground} {link : Link} {entries : List Entry} {journals : Journals}

@[simp] theorem stamp_id (r : Option String) (e : Entry) : (stamp r e).id = e.id := by
  unfold stamp
  split <;> rfl

@[simp] theorem stamp_reversal_of (r : Option String) (e : Entry) :
    (stamp r e).reversalOf = e.reversalOf := by
  unfold stamp
  split <;> rfl

theorem net_on_swap (account : String) (lines : List JournalLine) :
    netOn account lines + netOn account (lines.map swap) = 0 := by
  induction lines with
  | nil => rfl
  | cons l lines ih =>
    rw [List.map_cons, net_on_cons, net_on_cons]
    change (if l.account = account then _ else _) + _ +
      ((if l.account = account then l.creditPaise - l.debitPaise else 0) + _) = 0
    split <;> omega

theorem id_unique (h : Faithful ground journals) {e e' : Entry} (he : e ∈ journals.entries)
    (he' : e' ∈ journals.entries) (hid : e.id = e'.id) : e = e' := by
  obtain ⟨i, hi, rfl⟩ := List.mem_iff_getElem.mp he
  obtain ⟨j, hj, rfl⟩ := List.mem_iff_getElem.mp he'
  rw [h.numbered i hi, h.numbered j hj] at hid
  have hij := ground.ids.injective hid
  subst hij
  rfl

/-- Everything a call of `reverse_entry` can do. -/
theorem reverse_entry_cases (ground : Ground) (link : Link) (entries : List Entry)
    (entryId reversalDate : String) :
    (∃ raised, reverseEntry ground link entries entryId reversalDate = (.error raised, entries)) ∨
    ∃ original ∈ entries, original.id = entryId ∧ original.isPosted = true ∧
      original.reversalOf = none ∧ (∀ e ∈ entries, e.reversalOf ≠ some entryId) ∧
      reverseEntry ground link entries entryId reversalDate =
        createJournal ground link entries (reversalPosting original reversalDate) (some entryId) := by
  unfold reverseEntry
  cases hfind : entries.find? (fun e => e.id = entryId) with
  | none => exact .inl ⟨_, rfl⟩
  | some original =>
    dsimp only
    split_ifs with hposted hreversal halready hlines
    · exact .inl ⟨_, rfl⟩
    · exact .inl ⟨_, rfl⟩
    · exact .inl ⟨_, rfl⟩
    · exact .inl ⟨_, rfl⟩
    · refine .inr ⟨original, List.mem_of_find?_eq_some hfind, ?_, ?_, ?_, fun e he hsome => ?_, rfl⟩
      · simpa using List.find?_some hfind
      · simpa using hposted
      · simpa using hreversal
      · exact halready (List.any_eq_true.mpr ⟨e, he, decide_eq_true hsome⟩)

/-- A sound posting under a number of its own keeps the journals faithful, if what it reverses is
there, has its lines, and was not reversed before. -/
theorem Faithful.grow {reported : List (String × String)}
    (h : Faithful ground ⟨entries, reported⟩) {posting : Posting} {r : Option String}
    (hsound : posting.Sound)
    (hlines : ∀ o, r = some o → ∃ original ∈ entries,
      original.id = o ∧ posting.lines = original.lines.map swap)
    (hnew : ∀ o, r = some o → ∀ e ∈ entries, e.reversalOf ≠ some o) :
    Faithful ground
      ⟨(entries ++ [posting.entry (ground.ids entries.length) r]).map (stamp r), reported⟩ := by
  have hmem : ∀ e ∈ (entries ++ [posting.entry (ground.ids entries.length) r]).map (stamp r),
      (∃ e' ∈ entries, e = stamp r e') ∨
        e = stamp r (posting.entry (ground.ids entries.length) r) := by
    intro e he
    obtain ⟨e', he', rfl⟩ := List.mem_map.mp he
    rcases List.mem_append.mp he' with hold | hlast
    · exact .inl ⟨e', hold, rfl⟩
    · exact .inr (by rw [List.mem_singleton.mp hlast])
  have hkept : ∀ e ∈ entries,
      stamp r e ∈ (entries ++ [posting.entry (ground.ids entries.length) r]).map (stamp r) :=
    fun e he => List.mem_map_of_mem (List.mem_append_left _ he)
  refine ⟨?_, ?_, ?_, ?_, ?_⟩
  · intro e he
    rcases hmem e he with ⟨e', he', rfl⟩ | rfl
    · rw [stamp_lines]
      exact h.balanced e' he'
    · rw [stamp_lines]
      exact hsound.balanced
  · intro i hi
    rw [List.getElem_map, stamp_id]
    rw [List.length_map, List.length_append, List.length_singleton] at hi
    rcases Nat.lt_succ_iff_lt_or_eq.mp hi with hlt | rfl
    · rw [List.getElem_append_left hlt]
      exact h.numbered i hlt
    · rw [List.getElem_concat_length rfl]
      rfl
  · intro e he hreversal
    rcases hmem e he with ⟨e', he', rfl⟩ | rfl
    · rw [stamp_reversal_of] at hreversal
      obtain ⟨original, horiginal, hreverses⟩ := h.reverses e' he' hreversal
      refine ⟨stamp r original, hkept _ horiginal, ?_, ?_⟩
      · rw [stamp_reversal_of, stamp_id]
        exact hreverses.names
      · rw [stamp_lines, stamp_lines]
        exact hreverses.lines
    · rw [stamp_reversal_of] at hreversal
      obtain ⟨o, ho⟩ := Option.ne_none_iff_exists'.mp hreversal
      obtain ⟨original, horiginal, hid, hswap⟩ := hlines o ho
      refine ⟨stamp r original, hkept _ horiginal, ?_, ?_⟩
      · rw [stamp_reversal_of, stamp_id, hid]
        exact ho
      · rw [stamp_lines, stamp_lines]
        exact hswap
  · intro e he e' he' hreversal hsame
    rcases hmem e he with ⟨a, ha, rfl⟩ | rfl <;> rcases hmem e' he' with ⟨b, hb, rfl⟩ | rfl
    · rw [stamp_reversal_of] at hreversal
      rw [stamp_reversal_of, stamp_reversal_of] at hsame
      rw [stamp_id, stamp_id]
      exact h.once a ha b hb hreversal hsame
    · rw [stamp_reversal_of] at hreversal
      rw [stamp_reversal_of, stamp_reversal_of] at hsame
      obtain ⟨o, ho⟩ := Option.ne_none_iff_exists'.mp hreversal
      exact absurd ho (hnew o (hsame.symm.trans ho) a ha)
    · rw [stamp_reversal_of] at hreversal
      rw [stamp_reversal_of, stamp_reversal_of] at hsame
      obtain ⟨o, ho⟩ := Option.ne_none_iff_exists'.mp hreversal
      exact absurd (hsame.symm.trans ho) (hnew o ho b hb)
    · rfl
  · intro p hp
    obtain ⟨e, he, hid, hreversal⟩ := h.reported p hp
    refine ⟨stamp r e, hkept e he, ?_, ?_⟩
    · rw [stamp_id]
      exact hid
    · rw [stamp_reversal_of]
      exact hreversal

theorem post_faithful (h : Faithful ground journals) (link : Link) (posting : Posting) :
    Faithful ground (step ground journals (.post link posting)) := by
  rcases create_journal_entries ground link journals.entries posting none with
    hkeep | ⟨hsound, -, hadd⟩
  · change Faithful ground ⟨_, _⟩
    rw [hkeep]
    exact h
  · change Faithful ground ⟨_, _⟩
    rw [hadd]
    exact Faithful.grow h hsound (fun o ho => nomatch ho) (fun o ho => nomatch ho)

/-- What a clear reversal does: it leaves the entries as they are and reports nothing, or it adds
the whole reversal of an entry that had none. -/
theorem clear_reversal {original : Entry} {reversalDate : String} (horiginal : original ∈ entries)
    (hposted : original.isPosted = true) (hnot : original.reversalOf = none)
    (hnone : ∀ e ∈ entries, e.reversalOf ≠ some original.id)
    (hclear : Clear ground entries (.reverse link original.id reversalDate)) :
    let answer := createJournal ground link entries (reversalPosting original reversalDate)
      (some original.id)
    (∃ raised, answer.1 = .error raised) ∧ answer.2 = entries ∨
    (∀ id, answer.1 = .ok id → id = ground.ids entries.length) ∧
      (reversalPosting original reversalDate).Sound ∧
      (reversalPosting original reversalDate).lines = original.lines.map swap ∧
      answer.2 = (entries ++ [(reversalPosting original reversalDate).entry
        (ground.ids entries.length) (some original.id)]).map (stamp (some original.id)) := by
  intro answer
  have hwhole (hsound : (reversalPosting original reversalDate).Sound)
      (hfree : NumberFree entries original.id reversalDate) (hchanged : answer.2 ≠ entries) :
      (reversalPosting original reversalDate).lines = original.lines.map swap := by
    obtain ⟨haccepted, hwrites⟩ := create_journal_changed hchanged
    have hproceeds : Proceeds ground entries original reversalDate :=
      ⟨horiginal, hposted, hnot, hnone, haccepted, hsound⟩
    have hlength := (hclear original hproceeds rfl).2 hwrites hfree
    exact congrArg (List.map swap) (unpaged_whole hlength)
  have hlonger : (entries ++ [(reversalPosting original reversalDate).entry
      (ground.ids entries.length) (some original.id)]).map (stamp (some original.id)) ≠ entries := by
    intro heq
    have hlength := congrArg List.length heq
    rw [List.length_map, List.length_append, List.length_singleton] at hlength
    omega
  cases hanswer : answer.1 with
  | ok id =>
    obtain ⟨hsound, haccepted, hanswers⟩ := create_journal_answered hanswer
    have hproceeds : Proceeds ground entries original reversalDate :=
      ⟨horiginal, hposted, hnot, hnone, haccepted, hsound⟩
    have hfree := (hclear original hproceeds rfl).1 hanswers
    have hfresh : ∀ e ∈ entries, ¬ e.LiveAt (reversalPosting original reversalDate).referenceNo
        (reversalPosting original reversalDate).entryDate := hfree
    obtain ⟨-, hid, hadd⟩ := create_journal_fresh hfresh hanswer
    refine .inr ⟨fun id' hid' => ?_, hsound, hwhole hsound hfree (hadd ▸ hlonger), hadd⟩
    rw [← Except.ok.inj hid', hid]
  | error raised =>
    rcases create_journal_entries ground link entries (reversalPosting original reversalDate)
      (some original.id) with hkeep | ⟨hsound, hfree, hadd⟩
    · exact .inl ⟨⟨raised, rfl⟩, hkeep⟩
    · refine .inr ⟨fun id hid => ?_, hsound, hwhole hsound hfree (hadd ▸ hlonger), hadd⟩
      cases hid

theorem reverse_faithful (h : Faithful ground journals) {entryId reversalDate : String}
    (hclear : Clear ground journals.entries (.reverse link entryId reversalDate)) :
    Faithful ground (step ground journals (.reverse link entryId reversalDate)) := by
  unfold step
  dsimp only
  rcases reverse_entry_cases ground link journals.entries entryId reversalDate with
    ⟨raised, hraised⟩ | ⟨original, horiginal, rfl, hposted, hnot, hnone, hcall⟩
  · rw [hraised]
    exact h
  · rw [hcall]
    rcases clear_reversal horiginal hposted hnot hnone hclear with
      ⟨⟨raised, hraised⟩, hkeep⟩ | ⟨hid, hsound, hlines, hadd⟩
    · rw [hraised, hkeep]
      exact h
    · have hgrown := Faithful.grow (r := some original.id) h hsound
        (fun o ho => ⟨original, horiginal, Option.some.inj ho, hlines⟩)
        (fun o ho => ho ▸ hnone)
      rw [hadd]
      split
      · rename_i id hok
        refine { hgrown with reported := fun p hp => ?_ }
        rcases List.mem_append.mp hp with hold | hlast
        · exact hgrown.reported p hold
        · rw [List.mem_singleton.mp hlast]
          refine ⟨stamp (some original.id) ((reversalPosting original reversalDate).entry
            (ground.ids journals.entries.length) (some original.id)),
            List.mem_map_of_mem (List.mem_append_right _ List.mem_cons_self), ?_, ?_⟩
          · rw [stamp_id, hid id hok]
            rfl
          · rw [stamp_reversal_of]
            rfl
      · exact hgrown

theorem run_faithful (h : Faithful ground journals) (calls : List Call)
    (hclear : ClearRun ground journals calls) :
    Faithful ground (calls.foldl (step ground) journals) := by
  induction calls generalizing journals with
  | nil => exact h
  | cons call calls ih =>
    obtain ⟨hfirst, hrest⟩ := hclear
    refine ih ?_ hrest
    cases call with
    | post link posting => exact post_faithful h link posting
    | reverse link entryId reversalDate => exact reverse_faithful h hfirst

theorem empty_faithful (ground : Ground) : Faithful ground ⟨[], []⟩ where
  balanced _ he := absurd he List.not_mem_nil
  numbered i hi := absurd hi (Nat.not_lt_zero i)
  reverses _ he := absurd he List.not_mem_nil
  once _ he := absurd he List.not_mem_nil
  reported _ hp := absurd hp List.not_mem_nil

end

/-- Every reversal reverses its own entry. In a run of postings and reversals, the reversals clear
where they are made, every entry balances; an entry reported reversed has one reversal, the one
reported, of its own lines with the sides exchanged, so that the two net to nothing on every
account; and no reversal is reported for two entries. -/
theorem reversals_reverse_their_own (ground : Ground) (calls : List Call)
    (hclear : ClearRun ground ⟨[], []⟩ calls) :
    Balanced (run ground calls).entries ∧
    (∀ p ∈ (run ground calls).reported, ∃ original ∈ (run ground calls).entries,
      ∃ reversal ∈ (run ground calls).entries, original.id = p.1 ∧ reversal.id = p.2 ∧
        Reverses reversal original ∧
        (∀ e ∈ (run ground calls).entries, e.reversalOf = some p.1 → e = reversal) ∧
        ∀ account, netOn account original.lines + netOn account reversal.lines = 0) ∧
    ∀ p ∈ (run ground calls).reported, ∀ q ∈ (run ground calls).reported,
      p.2 = q.2 → p.1 = q.1 := by
  have h : Faithful ground (run ground calls) := run_faithful (empty_faithful ground) calls hclear
  refine ⟨h.balanced, fun p hp => ?_, fun p hp q hq hshared => ?_⟩
  · obtain ⟨reversal, hreversal, hid, hnames⟩ := h.reported p hp
    have hsome : reversal.reversalOf ≠ none := by rw [hnames]; exact Option.some_ne_none _
    obtain ⟨original, horiginal, hreverses⟩ := h.reverses reversal hreversal hsome
    refine ⟨original, horiginal, reversal, hreversal, ?_, hid, hreverses, fun e he hother => ?_, ?_⟩
    · exact Option.some.inj (hreverses.names.symm.trans hnames)
    · exact (id_unique h hreversal he
        (h.once reversal hreversal e he hsome (hnames.trans hother.symm))).symm
    · intro account
      rw [hreverses.lines]
      exact net_on_swap account original.lines
  · obtain ⟨e, he, hid, hnames⟩ := h.reported p hp
    obtain ⟨e', he', hid', hnames'⟩ := h.reported q hq
    have hsame := id_unique h he he' (hid.trans (hshared.trans hid'.symm))
    rw [hsame] at hnames
    exact Option.some.inj (hnames.symm.trans hnames')

/-- The first ids a database draws, two of them alike in their first eight characters. -/
def drawn : List String :=
  ["5f3a9c1e-0000-4000-8000-000000000001", "5f3a9c1e-0000-4000-8000-000000000002",
    "77aa01bc-0000-4000-8000-000000000003"]

def drawing : Ground where
  ids := ⟨fun n => drawn.getD n (String.ofList (List.replicate (n + 40) 'e')), fun n m h => by
    have hshort : ∀ i < 3, (drawn.getD i "").length = 36 := by decide
    have hlength (i : ℕ) : (drawn.getD i (String.ofList (List.replicate (i + 40) 'e'))).length =
        if i < 3 then 36 else i + 40 := by
      split
      · rename_i hi
        have hi' : i < drawn.length := hi
        rw [← hshort i hi, List.getD_eq_getElem _ _ hi', List.getD_eq_getElem _ _ hi']
      · rename_i hi
        rw [List.getD_eq_default _ _ (not_lt.mp hi)]
        simp
    have heq := congrArg String.length h
    rw [hlength, hlength] at heq
    by_cases hn : n < 3 <;> by_cases hm : m < 3
    · have hn' : n < drawn.length := hn
      have hm' : m < drawn.length := hm
      dsimp only at h
      rw [List.getD_eq_getElem _ _ hn', List.getD_eq_getElem _ _ hm'] at h
      exact (List.Nodup.getElem_inj_iff (by decide)).mp h
    · rw [if_pos hn, if_neg hm] at heq
      omega
    · rw [if_neg hn, if_pos hm] at heq
      omega
    · rw [if_neg hn, if_neg hm] at heq
      omega⟩
  refusal := fun _ => none

def rentPaid : Call :=
  .post .sound ⟨"2026-04-10", "RENT-APR", "Journal", [⟨"5200", 25000, 0⟩, ⟨"1101", 0, 25000⟩], true,
    none, none, none⟩

def feesPaid : Call :=
  .post .sound ⟨"2026-04-11", "FEES-APR", "Journal", [⟨"5300", 9000, 0⟩, ⟨"1101", 0, 9000⟩], true,
    none, none, none⟩

def reverseRent : Call := .reverse .sound "5f3a9c1e-0000-4000-8000-000000000001" "2026-04-30"

def reverseFees : Call := .reverse .sound "5f3a9c1e-0000-4000-8000-000000000002" "2026-04-30"

/-- The rent entry, before and after it is reversed. -/
def rentEntry (isReversed : Bool) : Entry :=
  ⟨"5f3a9c1e-0000-4000-8000-000000000001", "2026-04-10", "RENT-APR", "Journal", true, isReversed,
    none, none, none, [⟨"5200", 25000, 0⟩, ⟨"1101", 0, 25000⟩]⟩

theorem rent_run_clear : ClearRun drawing ⟨[], []⟩ [rentPaid, reverseRent, reverseRent] := by
  have hposted : step drawing ⟨[], []⟩ rentPaid = ⟨[rentEntry false], []⟩ := by decide +kernel
  refine ⟨trivial, ?_, ?_, trivial⟩
  · rw [hposted]
    intro original hproceeds _
    rw [List.mem_singleton.mp hproceeds.found]
    refine ⟨fun _ e he => ?_, fun _ _ => by decide⟩
    rw [List.mem_singleton.mp he]
    decide
  · intro original hproceeds hid
    have hreversal : ∃ e ∈ (step drawing ⟨[rentEntry false], []⟩ reverseRent).entries,
        e.reversalOf = some "5f3a9c1e-0000-4000-8000-000000000001" := by
      decide +kernel
    rw [hposted] at hproceeds
    obtain ⟨e, he, hsome⟩ := hreversal
    exact absurd (hsome.trans (congrArg some hid.symm)) (hproceeds.unreversed e he)

/-- The rent is posted, reversed, and asked to be reversed again. -/
theorem rent_reversed :
    ∃ original ∈ (run drawing [rentPaid, reverseRent, reverseRent]).entries,
      ∃ reversal ∈ (run drawing [rentPaid, reverseRent, reverseRent]).entries,
        Reverses reversal original ∧
        ∀ account, netOn account original.lines + netOn account reversal.lines = 0 := by
  have hreported : ("5f3a9c1e-0000-4000-8000-000000000001",
      "5f3a9c1e-0000-4000-8000-000000000002") ∈
      (run drawing [rentPaid, reverseRent, reverseRent]).reported := by
    decide +kernel
  obtain ⟨original, horiginal, reversal, hreversal, -, -, hreverses, -, hnets⟩ :=
    (reversals_reverse_their_own drawing _ rent_run_clear).2.1 _ hreported
  exact ⟨original, horiginal, reversal, hreversal, hreverses, hnets⟩

/-- Two entries whose ids begin alike, reversed on one day: the second is reported reversed by the
reversal of the first, and stands. -/
theorem reversal_shared :
    (run drawing [rentPaid, feesPaid, reverseRent, reverseFees]).reported =
      [("5f3a9c1e-0000-4000-8000-000000000001", "77aa01bc-0000-4000-8000-000000000003"),
        ("5f3a9c1e-0000-4000-8000-000000000002", "77aa01bc-0000-4000-8000-000000000003")] ∧
    (run drawing [rentPaid, feesPaid, reverseRent, reverseFees]).entries.map
      (fun e => (e.isReversed, e.reversalOf)) =
      [(true, none), (false, none), (false, some "5f3a9c1e-0000-4000-8000-000000000001")] := by
  decide +kernel

end Caflow.Accounting.Kernel.Reversal
