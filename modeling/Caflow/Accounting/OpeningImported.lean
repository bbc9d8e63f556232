import Caflow.Accounting.OpeningDocuments

namespace Caflow.Accounting.OpeningDocuments
open Text (strip strip_strip)

section
variable {casing : Casing} {kind : Kind} {parties parties' : List Party} {r : ImportRow}

/-- Lists of one at most that hold the same are the same. -/
theorem few_eq {α : Type*} {l l' : List α} (h : l.Perm l') (hfew : ¬ 1 < l.length) : l = l' := by
  match l with
  | [] => exact h.nil_eq
  | [a] => exact (List.perm_singleton.mp h.symm).symm
  | a :: b :: l => simp at hfew

theorem resolve_gstin_perm (h : parties.Perm parties') (gstin : String) :
    resolveGstin casing parties gstin = resolveGstin casing parties' gstin := by
  have hhits : (byGstin casing parties gstin).Perm (byGstin casing parties' gstin) := h.filter _
  simp only [resolveGstin, hhits.length_eq]
  split_ifs with hblank hmany
  · rfl
  · rfl
  · rw [few_eq hhits (hhits.length_eq ▸ hmany)]

theorem resolve_name_perm (h : parties.Perm parties') (name gstin : String) (byG : Option Party) :
    resolveName casing parties name gstin byG = resolveName casing parties' name gstin byG := by
  have hhits : (byName casing parties name).Perm (byName casing parties' name) := h.filter _
  simp only [resolveName, hhits.length_eq, hhits.any_eq]
  split_ifs with hmany
  · rfl
  · rw [few_eq hhits (hhits.length_eq ▸ hmany)]

/-- Which party a row names does not depend on the order of the parties. -/
theorem resolve_party_perm (h : parties.Perm parties') (r : ImportRow) :
    resolveParty casing parties r = resolveParty casing parties' r := by
  simp only [resolveParty, resolve_gstin_perm h, resolve_name_perm h]

theorem names_perm (h : parties.Perm parties') (hids : (parties.map (·.id)).Nodup) :
    Dict.get (names parties) = Dict.get (names parties') := by
  have hkeyed : ∀ parties : List Party, (parties.map (·.id)).Nodup →
      Dict.Keyed ((parties.filter (·.id ≠ "")).map fun p =>
        (p.id, if p.name.getD "" = "" then p.id else p.name.getD "")) := by
    intro parties hids
    rw [Dict.Keyed, List.map_map]
    exact (List.filter_sublist.map _).nodup hids
  have hids' : (parties'.map (·.id)).Nodup := ((h.map _).nodup_iff).mp hids
  funext id
  rw [names, names, Dict.from_pairs_keyed (hkeyed _ hids), Dict.from_pairs_keyed (hkeyed _ hids')]
  exact Dict.get_perm (hkeyed _ hids) ((h.filter _).map _) id

theorem resolve_gstin_mem {gstin : String} {p : Party}
    (h : resolveGstin casing parties gstin = .ok (some p)) : p ∈ parties ∧ p.id ≠ "" := by
  unfold resolveGstin at h
  dsimp only at h
  split_ifs at h with hblank hmany
  · cases h
  · split at h
    · cases h
    · rename_i hhead
      cases h
      have hmem := List.mem_of_head? hhead
      simp only [byGstin, List.mem_filter, decide_eq_true_eq] at hmem
      exact ⟨hmem.1, hmem.2.1⟩

theorem resolve_name_mem {name gstin : String} {byG : Option Party} {p : Party}
    (hg : ∀ g, byG = some g → g ∈ parties ∧ g.id ≠ "")
    (h : resolveName casing parties name gstin byG = .ok p) : p ∈ parties ∧ p.id ≠ "" := by
  have hnamed : ∀ p, (byName casing parties name).head? = some p → p ∈ parties ∧ p.id ≠ "" := by
    intro p hhead
    have hmem := List.mem_of_head? hhead
    simp only [byName, List.mem_filter, decide_eq_true_eq] at hmem
    exact ⟨hmem.1, hmem.2.1⟩
  unfold resolveName at h
  dsimp only at h
  split at h
  · split at h
    · split at h
      · cases h
        exact hg p rfl
      · cases h
    · cases h
  · split at h
    · rename_i hhead
      split at h
      · cases h
      · cases h
        exact hnamed p hhead
    · rename_i hhead
      cases h
      exact hnamed p hhead
    · cases h
      exact hg p rfl
    · cases h

/-- A row's party is one of the client's. -/
theorem resolve_party_mem {p : Party} (h : resolveParty casing parties r = .ok p) :
    p ∈ parties ∧ p.id ≠ "" := by
  unfold resolveParty at h
  dsimp only at h
  split at h
  · cases h
  · rename_i byG hgstin
    have hg : ∀ g, byG = some g → g ∈ parties ∧ g.id ≠ "" := by
      rintro g rfl
      exact resolve_gstin_mem hgstin
    split at h
    · exact resolve_name_mem hg h
    · split at h
      · cases h
        exact hg p rfl
      · cases h

/-- A row that nothing is said against names a party and has a number. -/
theorem own_problems_nil (h : ownProblems casing parties r = []) :
    (∃ pid, partyId casing parties r = some pid ∧ pid ∈ partyIdsOf parties) ∧ r.number ≠ "" := by
  simp only [ownProblems, problemWith, List.append_eq_nil_iff] at h
  obtain ⟨⟨⟨hparty, -⟩, -⟩, ⟨⟨⟨-, hnumber⟩, -⟩, -⟩, -⟩ := h
  constructor
  · unfold partyId
    cases hresolved : resolveParty casing parties r with
    | error why => simp [hresolved] at hparty
    | ok p =>
      obtain ⟨hmem, hne⟩ := resolve_party_mem hresolved
      exact ⟨p.id, rfl, List.mem_filter.mpr ⟨List.mem_map_of_mem hmem, by simpa using hne⟩⟩
  · intro hblank
    have hstrip : strip r.number = "" := (strip_strip r.documentNo).trans hblank
    simp [hstrip] at hnumber

theorem row_key_some {k : Option String × String} :
    rowKey casing kind parties r = some k ↔
      ownProblems casing parties r = [] ∧
        documentKey casing kind (partyId casing parties r) r.number = k := by
  unfold rowKey
  constructor
  · intro h
    split_ifs at h with hown
    exact ⟨hown.1, Option.some.inj h⟩
  · rintro ⟨hown, rfl⟩
    rw [if_pos ⟨hown, (own_problems_nil hown).2⟩]

theorem row_key_none :
    rowKey casing kind parties r = none ↔ ownProblems casing parties r ≠ [] := by
  rw [Option.eq_none_iff_forall_ne_some]
  constructor
  · intro h hown
    exact h _ (row_key_some.mpr ⟨hown, rfl⟩)
  · intro h k hk
    exact h (row_key_some.mp hk).1

end

/-- A row that the unique index has: a live invoice, or a live bill with a number that is not
cancelled. -/
def covered (kind : Kind) (row : DocumentRow) : Bool :=
  !row.deleted &&
    match kind with
    | .receivable => true
    | .payable => row.status ≠ "cancelled" && strip (row.document.number.getD "") ≠ ""

/-- The key of a row in the index: an invoice's number as it is written, a bill's vendor and its
number without case or surrounding space. -/
def indexKey (casing : Casing) (kind : Kind) (row : DocumentRow) : Option String × String :=
  match kind with
  | .receivable => (none, row.document.number.getD "")
  | .payable => (row.document.party, casing.lower (strip (row.document.number.getD "")))

def onBooks (casing : Casing) (kind : Kind) (rows : List DocumentRow) :
    List ((Option String × String) × Document) :=
  (rows.filter (covered kind)).map fun row => (indexKey casing kind row, row.document)

/-- The unique index holds. -/
def Respects (casing : Casing) (kind : Kind) (rows : List DocumentRow) : Prop :=
  Dict.Keyed (onBooks casing kind rows)

/-- A row but for what receipts and payments change. -/
def DocumentRow.unsettled (row : DocumentRow) : DocumentRow :=
  { row with paidPaise := 0, status := if row.status = "cancelled" then "cancelled" else "" }

section
variable {casing : Casing} {kind : Kind} {parties : List Party} {rows rows' : List DocumentRow}
  {r : ImportRow} {file : List ImportRow}

theorem find_congr {α : Type*} {p q : α → Bool} {l : List α} (h : ∀ a ∈ l, p a = q a) :
    l.find? p = l.find? q := by
  induction l with
  | nil => rfl
  | cons a l ih =>
    obtain ⟨ha, hl⟩ := List.forall_mem_cons.mp h
    rw [List.find?_cons, List.find?_cons, ha, ih hl]

/-- What is fetched for a file is all the books have under the key of a row in it. -/
theorem fetched_get (hown : ownProblems casing parties r = []) (hr : r ∈ file) :
    Dict.get (onFile casing kind
        (existingForImport kind (numbersOf file) (partyIdsOf parties) rows))
        (documentKey casing kind (partyId casing parties r) r.number) =
      Dict.get (onBooks casing kind rows)
        (documentKey casing kind (partyId casing parties r) r.number) := by
  obtain ⟨⟨pid, hpid, hparty⟩, hne⟩ := own_problems_nil hown
  have hstrip : strip r.number = r.number := strip_strip r.documentNo
  have hnumber : r.number ∈ numbersOf file :=
    List.mem_filter.mpr ⟨List.mem_map_of_mem hr, by simpa using hne⟩
  have hnumbers : ∀ n ∈ numbersOf file, strip n = n := by
    intro n hn
    obtain ⟨r', -, rfl⟩ := List.mem_map.mp (List.mem_of_mem_filter hn)
    exact strip_strip r'.documentNo
  rw [onFile, existingForImport, List.map_map, onBooks, Function.comp_def, Dict.get_filter_map,
    Dict.get_filter_map, hpid]
  congr 1
  refine find_congr fun row _ => Bool.eq_iff_iff.mpr ?_
  cases kind with
  | receivable =>
    simp only [documentKey, covered, indexKey, hstrip, Bool.and_eq_true, Bool.and_true,
      decide_eq_true_eq, Prod.mk.injEq, true_and, Option.any_eq_true]
    constructor
    · rintro ⟨⟨hlive, n, hn, hmem⟩, hkey⟩
      rw [hn, Option.getD_some, hnumbers n hmem] at hkey
      exact ⟨hlive, by rw [hn, Option.getD_some, hkey]⟩
    · rintro ⟨hlive, hkey⟩
      cases hn : row.document.number with
      | none => exact absurd (hkey.symm.trans (by rw [hn]; rfl)) hne
      | some n =>
        rw [hn, Option.getD_some] at hkey
        subst hkey
        exact ⟨⟨hlive, r.number, rfl, hnumber⟩, hstrip⟩
  | payable =>
    simp only [documentKey, covered, indexKey, hstrip, Bool.and_eq_true, decide_eq_true_eq,
      Prod.mk.injEq, Option.any_eq_true, ne_eq]
    constructor
    · rintro ⟨⟨hlive, -, hstatus⟩, hvendor, hkey⟩
      refine ⟨⟨hlive, hstatus, fun hblank => hne (casing.lowerBlank _ ?_)⟩, hvendor, hkey⟩
      rw [← hkey, hblank]
    · rintro ⟨⟨hlive, hstatus, -⟩, hvendor, hkey⟩
      exact ⟨⟨hlive, ⟨pid, hvendor, hparty⟩, hstatus⟩, hvendor, hkey⟩

/-- A file is judged by the keys of the books alone. -/
theorem plan_file_eq (casing : Casing) (kind : Kind) (parties : List Party)
    (rows : List DocumentRow) (file : List ImportRow) :
    planFile casing kind parties rows file =
      FirstSeen.answers (rowKey casing kind parties) (·.row)
        (judge casing kind parties (Dict.get (onBooks casing kind rows))) [] file := by
  unfold planFile plan
  rw [← List.forall₂_eq_eq_eq]
  refine FirstSeen.answers_forall₂ fun before r after he => ?_
  unfold judge
  dsimp only
  split_ifs with hproblems
  · rfl
  · have hown : ownProblems casing parties r = [] :=
      (List.append_eq_nil_iff.mp (not_not.mp hproblems)).1
    have hr : r ∈ file := by simp [he]
    rw [fetched_get hown hr]

theorem on_books_unsettled (casing : Casing) (kind : Kind) (rows : List DocumentRow) :
    onBooks casing kind (rows.map DocumentRow.unsettled) = onBooks casing kind rows := by
  have hcovered : ∀ row : DocumentRow, covered kind row.unsettled = covered kind row := by
    intro row
    cases kind with
    | receivable => rfl
    | payable =>
      by_cases hcancelled : row.status = "cancelled"
      · simp [covered, DocumentRow.unsettled, hcancelled]
      · simp [covered, DocumentRow.unsettled, hcancelled]
  have hkey : ∀ row : DocumentRow,
      indexKey casing kind row.unsettled = indexKey casing kind row := by
    intro row
    cases kind <;> rfl
  have hdocument : ∀ row : DocumentRow, row.unsettled.document = row.document := fun _ => rfl
  rw [onBooks, List.filter_map, List.map_map, onBooks]
  simp only [Function.comp_def, hcovered, hkey, hdocument]

/-- The books answer the same in any order, and whatever has been received or paid. -/
theorem books_perm (hrows : Respects casing kind rows)
    (h : (rows'.map DocumentRow.unsettled).Perm (rows.map DocumentRow.unsettled)) :
    Dict.get (onBooks casing kind rows') = Dict.get (onBooks casing kind rows) := by
  have hperm : (onBooks casing kind rows).Perm (onBooks casing kind rows') := by
    rw [← on_books_unsettled casing kind rows, ← on_books_unsettled casing kind rows']
    exact (h.symm.filter _).map _
  funext k
  exact (Dict.get_perm hrows hperm k).symm

variable {books : (Option String × String) → Option Document} {repeated : Option ℤ}
  {newId : Verdict → String}

/-- A row is new where nothing is said against it, it is the first of its document in the file, and
the books have none. -/
theorem judge_new (h : (judge casing kind parties books r repeated).status = .new) :
    ownProblems casing parties r = [] ∧ repeated = none ∧
      books (documentKey casing kind (partyId casing parties r) r.number) = none ∧
      judge casing kind parties books r repeated = taken casing parties r .new none := by
  unfold judge at h ⊢
  dsimp only at h ⊢
  split_ifs at h ⊢ with hproblems
  · cases h
  · obtain ⟨hown, hrepeated⟩ := List.append_eq_nil_iff.mp (not_not.mp hproblems)
    have hnone : repeated = none := by simpa using hrepeated
    split at h
    · rename_i hbooks
      exact ⟨hown, hnone, hbooks, rfl⟩
    · split at h <;> cases h

/-- What a new row is written as is in the index, under the row's key. -/
theorem written_key (hown : ownProblems casing parties r = []) (status : Status)
    (existingId : Option String) :
    covered kind (writtenRow kind newId (taken casing parties r status existingId)) = true ∧
      indexKey casing kind (writtenRow kind newId (taken casing parties r status existingId)) =
        documentKey casing kind (partyId casing parties r) r.number := by
  have hstrip : strip r.number = r.number := strip_strip r.documentNo
  have hne := (own_problems_nil hown).2
  cases kind with
  | receivable => simp [covered, indexKey, documentKey, writtenRow, taken, hstrip]
  | payable =>
    simp [covered, indexKey, documentKey, writtenRow, taken, hstrip, hne, openStatus]

/-- The books have a recorded document as the row it was written for. -/
theorem written_no_clash (status : Status) (existingId : Option String) :
    clashWith casing parties r
      (writtenRow kind newId (taken casing parties r status existingId)).document = none := by
  simp [clashWith, writtenRow, taken]

def writtenBooks (casing : Casing) (kind : Kind) (newId : Verdict → String)
    (verdicts : List Verdict) : List ((Option String × String) × Document) :=
  (verdicts.filter (·.status = .new)).map fun v =>
    (indexKey casing kind (writtenRow kind newId v), (writtenRow kind newId v).document)

theorem new_verdict {v : Verdict} (hv : v ∈ planFile casing kind parties rows file)
    (hnew : v.status = .new) : ∃ r ∈ file, ownProblems casing parties r = [] ∧
      Dict.get (onBooks casing kind rows)
        (documentKey casing kind (partyId casing parties r) r.number) = none ∧
      v = taken casing parties r .new none := by
  rw [plan_file_eq] at hv
  obtain ⟨before, r, after, rfl, rfl⟩ := FirstSeen.mem_answers hv
  obtain ⟨hown, -, hbooks, heq⟩ := judge_new hnew
  exact ⟨r, by simp, hown, hbooks, heq⟩

theorem books_created (rows : List DocumentRow) (file : List ImportRow) :
    onBooks casing kind (bulkCreate kind newId (planFile casing kind parties rows file) rows) =
      onBooks casing kind rows ++
        writtenBooks casing kind newId (planFile casing kind parties rows file) := by
  rw [onBooks, bulkCreate, List.filter_append, List.map_append, writtenBooks]
  congr 1
  rw [List.filter_eq_self.mpr, List.map_map]
  · rfl
  · intro row hrow
    obtain ⟨v, hv, rfl⟩ := List.mem_map.mp hrow
    obtain ⟨hmem, hnew⟩ := List.mem_filter.mp hv
    obtain ⟨r, -, hown, -, rfl⟩ := new_verdict hmem (of_decide_eq_true hnew)
    exact (written_key hown _ _).1

/-- No two rows that are called new have one key. -/
theorem new_keys_apart (rows : List DocumentRow) (file : List ImportRow) :
    Dict.Keyed (writtenBooks casing kind newId (planFile casing kind parties rows file)) := by
  rw [Dict.Keyed, writtenBooks, List.map_map, List.Nodup, List.pairwise_map, List.pairwise_filter,
    plan_file_eq]
  refine FirstSeen.answers_pairwise fun before a between b after _ ha hb => ?_
  obtain ⟨howna, -, -, heqa⟩ := judge_new (of_decide_eq_true ha)
  obtain ⟨hownb, hfirst, -, heqb⟩ := judge_new (of_decide_eq_true hb)
  have hkeya : rowKey casing kind parties a = some _ := row_key_some.mpr ⟨howna, rfl⟩
  have hkeyb : rowKey casing kind parties b = some _ := row_key_some.mpr ⟨hownb, rfl⟩
  have hapart := (FirstSeen.earlier_none_iff hkeyb).mp hfirst a (by simp)
  simp only [Function.comp_apply]
  rw [heqa, heqb, (written_key howna _ _).2, (written_key hownb _ _).2]
  rw [hkeya] at hapart
  exact fun heq => hapart (congrArg some heq)

/-- No row that is called new has a key the books have. -/
theorem new_keys_free : ∀ p ∈ writtenBooks casing kind newId (planFile casing kind parties rows file),
    p.1 ∉ (onBooks casing kind rows).map Prod.fst := by
  intro p hp
  obtain ⟨v, hv, rfl⟩ := List.mem_map.mp hp
  obtain ⟨hmem, hnew⟩ := List.mem_filter.mp hv
  obtain ⟨r, -, hown, hbooks, rfl⟩ := new_verdict hmem (of_decide_eq_true hnew)
  rw [(written_key hown _ _).2]
  exact Dict.get_none.mp hbooks

/-- Writing what is new does not trip the index. -/
theorem created_respects (h : Respects casing kind rows) :
    Respects casing kind
      (bulkCreate kind newId (planFile casing kind parties rows file) rows) := by
  rw [Respects, Dict.Keyed, books_created, List.map_append, List.nodup_append]
  refine ⟨h, new_keys_apart rows file, fun k hk k' hk' heq => ?_⟩
  obtain ⟨p, hp, rfl⟩ := List.mem_map.mp hk'
  exact new_keys_free p hp (heq ▸ hk)

/-- What a row is when its file is planned again: what was new is recorded. -/
def Verdict.again (newId : Verdict → String) (v : Verdict) : Verdict :=
  if v.status = .new then { v with status := .alreadyRecorded, existingId := some (newId v) } else v

/-- A row that is taken as recorded differs from one taken as new in nothing else. -/
theorem taken_recorded (r : ImportRow) (existing : Option String) :
    taken casing parties r .alreadyRecorded existing =
      { taken casing parties r .new none with
        status := .alreadyRecorded, existingId := existing } := by
  simp only [taken]

theorem judged_again
    (hr : judge casing kind parties (Dict.get (onBooks casing kind rows)) r repeated ∈
      planFile casing kind parties rows file) :
    judge casing kind parties (Dict.get (onBooks casing kind
        (bulkCreate kind newId (planFile casing kind parties rows file) rows))) r repeated =
      (judge casing kind parties (Dict.get (onBooks casing kind rows)) r repeated).again newId := by
  set v := judge casing kind parties (Dict.get (onBooks casing kind rows)) r repeated with hv
  rw [books_created]
  by_cases hnew : v.status = .new
  · obtain ⟨hown, hfirst, hbooks, heq⟩ := judge_new (hv ▸ hnew)
    rw [← hv] at heq
    have hpair : Dict.get (writtenBooks casing kind newId (planFile casing kind parties rows file))
        (documentKey casing kind (partyId casing parties r) r.number) =
        some (writtenRow kind newId v).document := by
      have hkey : indexKey casing kind (writtenRow kind newId v) = _ :=
        heq ▸ (written_key hown _ _).2
      rw [Dict.get_some (new_keys_apart rows file), ← hkey]
      exact List.mem_map.mpr ⟨v, List.mem_filter.mpr ⟨hr, decide_eq_true hnew⟩, rfl⟩
    have hclash : clashWith casing parties r (writtenRow kind newId v).document = none := by
      rw [heq]
      exact written_no_clash _ _
    rw [Verdict.again, if_pos hnew]
    unfold judge
    dsimp only
    rw [hown, hfirst, Dict.get_append, hbooks, Option.none_or, hpair]
    simp only [Option.map_none, Option.toList_none, List.append_nil, ne_eq, not_true, if_false,
      hclash]
    rw [taken_recorded, ← heq, show (writtenRow kind newId v).document.id = newId v from rfl]
  · rw [Verdict.again, if_neg hnew, hv]
    rw [hv] at hnew
    unfold judge at hnew ⊢
    dsimp only at hnew ⊢
    split_ifs at hnew ⊢ with hproblems
    · rfl
    · rw [Dict.get_append]
      cases hbooks : Dict.get (onBooks casing kind rows)
          (documentKey casing kind (partyId casing parties r) r.number) with
      | none =>
        rw [hbooks] at hnew
        exact absurd rfl hnew
      | some clash => rfl

/-- Planned again over what was written, whatever has been received or paid since, every row that
was new is recorded and every other is what it was. -/
theorem planned_again (h : Respects casing kind rows)
    (hsettled : (rows'.map DocumentRow.unsettled).Perm
      ((bulkCreate kind newId (planFile casing kind parties rows file) rows).map
        DocumentRow.unsettled)) :
    List.Forall₂ (fun v v' => v' = v.again newId) (planFile casing kind parties rows file)
      (planFile casing kind parties rows' file) := by
  rw [plan_file_eq casing kind parties rows', books_perm (created_respects h) hsettled]
  nth_rewrite 1 [plan_file_eq]
  refine FirstSeen.answers_forall₂ fun before r after he => judged_again ?_
  rw [plan_file_eq, he, FirstSeen.answers_split]
  exact List.mem_append_right _ List.mem_cons_self

/-- A problem that a recorded document is for a row. -/
def Problem.againstBooks : Problem → Bool
  | .ordinaryDocument _ | .otherParty _ _ | .otherAmount _ _ _ => true
  | _ => false

theorem clash_against_books {clash : Document} {why : Problem}
    (h : clashWith casing parties r clash = some why) : why.againstBooks := by
  unfold clashWith at h
  split_ifs at h <;> cases h <;> rfl

/-- A row rejected for anything but a recorded document keeps no key, or its key was another's. -/
theorem rejected_unkept (hrejected :
      (judge casing kind parties books r repeated).status = .rejected)
    (hwhy : ∀ why ∈ (judge casing kind parties books r repeated).problems,
      why.againstBooks = false) :
    rowKey casing kind parties r = none ∨ repeated ≠ none := by
  by_contra hkept
  rw [not_or, not_not, row_key_none, not_not] at hkept
  obtain ⟨hown, rfl⟩ := hkept
  simp only [judge, hown, Option.map_none, Option.toList_none, List.append_nil, ne_eq,
    not_true, if_false] at hrejected hwhy
  cases hbooks : books (documentKey casing kind (partyId casing parties r) r.number) with
  | none => simp [hbooks, taken] at hrejected
  | some clash =>
    cases hclash : clashWith casing parties r clash with
    | none => simp [hbooks, hclash, taken] at hrejected
    | some why =>
      rw [hbooks] at hwhy
      simp only [hclash] at hwhy
      have hfalse := hwhy why (List.mem_singleton.mpr rfl)
      rw [clash_against_books hclash] at hfalse
      cases hfalse

/-- Without a row that is rejected for anything but a recorded document, the other rows are what
they were. -/
theorem others_unchanged {before after : List ImportRow} {v : Verdict}
    (hv : (planFile casing kind parties rows (before ++ r :: after))[before.length]? = some v)
    (hrejected : v.status = .rejected) (hwhy : ∀ why ∈ v.problems, why.againstBooks = false) :
    planFile casing kind parties rows (before ++ after) =
      (planFile casing kind parties rows (before ++ r :: after)).eraseIdx before.length := by
  rw [plan_file_eq, plan_file_eq]
  rw [plan_file_eq, FirstSeen.answers_split, List.getElem?_append_right (by simp)] at hv
  simp only [FirstSeen.answers_length, Nat.sub_self, List.getElem?_cons_zero,
    Option.some.injEq] at hv
  subst hv
  exact FirstSeen.answers_without (rejected_unkept hrejected hwhy)

/-- Without any row, only the rows of its document may be other than they were. -/
theorem other_keys_unchanged {before after : List ImportRow} {b : ImportRow} {i : ℕ}
    (hb : (before ++ after)[i]? = some b)
    (hkey : rowKey casing kind parties b = none ∨
      rowKey casing kind parties b ≠ rowKey casing kind parties r) :
    (planFile casing kind parties rows (before ++ after))[i]? =
      ((planFile casing kind parties rows (before ++ r :: after)).eraseIdx before.length)[i]? := by
  rw [plan_file_eq, plan_file_eq]
  exact FirstSeen.answers_other hb hkey

/-- What a row is does not depend on the order of the parties or of the recorded documents. -/
theorem plan_file_perm (hids : (parties.map (·.id)).Nodup) (hrows : Respects casing kind rows)
    (hparties : parties.Perm parties') (hperm : rows.Perm rows') :
    planFile casing kind parties' rows' file = planFile casing kind parties rows file := by
  have hbooks : Dict.get (onBooks casing kind rows') = Dict.get (onBooks casing kind rows) :=
    books_perm hrows (hperm.symm.map _)
  have hresolve : resolveParty casing parties' = resolveParty casing parties :=
    funext fun r => (resolve_party_perm hparties r).symm
  have hown : ownProblems casing parties' = ownProblems casing parties := by
    funext r
    simp only [ownProblems, hresolve]
  have hparty : partyId casing parties' = partyId casing parties := by
    funext r
    simp only [partyId, hresolve]
  have hnames := names_perm hparties hids
  have hjudge : judge casing kind parties' = judge casing kind parties := by
    funext books r repeated
    simp only [judge, hown, hparty, taken, clashWith, hnames]
  have hkey : rowKey casing kind parties' = rowKey casing kind parties := by
    funext r
    simp only [rowKey, hown, hparty]
  rw [plan_file_eq, plan_file_eq, hbooks, hjudge, hkey]

theorem again_recorded (newId : Verdict → String) (v : Verdict) :
    (v.again newId).status ≠ .new ∧ (v.status = .new → (v.again newId).status = .alreadyRecorded) := by
  by_cases hnew : v.status = .new
  · simp [Verdict.again, hnew]
  · simp [Verdict.again, hnew]

end

/-- A file is recorded once. What is called new keeps the unique index; planned again after receipts
and payments it is all recorded; a row rejected for anything but a recorded document leaves the
others as they were, and any row leaves the rows of other documents; and the order of the parties and
of the books does not matter. -/
theorem import_once (casing : Casing) (kind : Kind) (parties : List Party)
    (hids : (parties.map (·.id)).Nodup) (rows : List DocumentRow)
    (hrows : Respects casing kind rows) (file : List ImportRow) (newId : Verdict → String) :
    let verdicts := planFile casing kind parties rows file
    ((verdicts.filter (·.status = .new)).map fun v =>
      indexKey casing kind (writtenRow kind newId v)).Nodup ∧
    (∀ v ∈ verdicts, v.status = .new → ∀ row ∈ rows, covered kind row →
      indexKey casing kind row ≠ indexKey casing kind (writtenRow kind newId v)) ∧
    Respects casing kind (bulkCreate kind newId verdicts rows) ∧
    (∀ rows', (rows'.map DocumentRow.unsettled).Perm
        ((bulkCreate kind newId verdicts rows).map DocumentRow.unsettled) →
      List.Forall₂ (fun v v' => (v.status = .new → v'.status = .alreadyRecorded) ∧
          v'.status ≠ .new ∧ v' = v.again newId)
        verdicts (planFile casing kind parties rows' file)) ∧
    (∀ before r after, file = before ++ r :: after →
      (∀ v, verdicts[before.length]? = some v → v.status = .rejected →
        (∀ why ∈ v.problems, why.againstBooks = false) →
        planFile casing kind parties rows (before ++ after) = verdicts.eraseIdx before.length) ∧
      ∀ (i : ℕ) (b : ImportRow), (before ++ after)[i]? = some b →
        rowKey casing kind parties b = none ∨
          rowKey casing kind parties b ≠ rowKey casing kind parties r →
        (planFile casing kind parties rows (before ++ after))[i]? =
          (verdicts.eraseIdx before.length)[i]?) ∧
    ∀ parties' rows', parties.Perm parties' → rows.Perm rows' →
      planFile casing kind parties' rows' file = verdicts := by
  refine ⟨?_, fun v hv hnew row hrow hcovered heq => ?_, created_respects hrows,
    fun rows' hsettled => ?_, ?_, fun parties' rows' => plan_file_perm hids hrows⟩
  · have hapart : Dict.Keyed (writtenBooks casing kind newId
        (planFile casing kind parties rows file)) := new_keys_apart rows file
    rwa [Dict.Keyed, writtenBooks, List.map_map] at hapart
  · have hwritten : (_, (writtenRow kind newId v).document) ∈ writtenBooks casing kind newId
        (planFile casing kind parties rows file) :=
      List.mem_map.mpr ⟨v, List.mem_filter.mpr ⟨hv, decide_eq_true hnew⟩, rfl⟩
    refine new_keys_free _ hwritten (heq ▸ List.mem_map.mpr ⟨(_, row.document), ?_, rfl⟩)
    exact List.mem_map.mpr ⟨row, List.mem_filter.mpr ⟨hrow, hcovered⟩, rfl⟩
  · refine (planned_again hrows hsettled).imp fun v v' h => ?_
    subst h
    exact ⟨(again_recorded newId v).2, (again_recorded newId v).1, rfl⟩
  · rintro before r after rfl
    exact ⟨fun v => others_unchanged, fun i b => other_keys_unchanged⟩

theorem ascii_lower_blank (s : String) (h : Text.lower s = Text.lower "") : s = "" := by
  have hchars := congrArg String.toList h
  simpa [Text.lower] using hchars

/-- The case of plain texts. -/
def ascii : Casing := ⟨Text.lower, Text.lower, Text.upper, ascii_lower_blank⟩

def customers : List Party := [⟨"c1", some "Asha Traders", none⟩]

def recordedInvoice : DocumentRow :=
  ⟨⟨"d1", some "INV-1", some "c1", true, some 20000⟩, 0, "issued", false⟩

def wrongAmount : ImportRow :=
  ⟨2, "ASHA  Traders", none, "INV-1", "01-04-2026", none, some 10000, none⟩

def rightAmount : ImportRow :=
  ⟨3, "Asha Traders", none, "INV-1", "2026-04-01", none, some 20000, none⟩

def newInvoice : ImportRow :=
  ⟨4, "Asha Traders", none, "INV-2", "2026-04-01", none, some 5000, none⟩

theorem customer_ids : (customers.map (·.id)).Nodup := by decide

theorem recorded_respects : Respects ascii .receivable [recordedInvoice] :=
  List.nodup_singleton _

/-- A file of a recorded invoice and a new one keeps the index. -/
theorem import_once_two : Respects ascii .receivable (bulkCreate .receivable (fun _ => "d2")
    (planFile ascii .receivable customers [recordedInvoice] [rightAmount, newInvoice])
    [recordedInvoice]) :=
  (import_once ascii .receivable customers customer_ids [recordedInvoice] recorded_respects
    [rightAmount, newInvoice] fun _ => "d2").2.2.1

/-- A row that is rejected because its invoice is recorded with another amount still keeps the
number: the row with the right amount is then a repeat, which on its own is already recorded. -/
theorem rejected_keeps_number :
    (planFile ascii .receivable customers [recordedInvoice] [wrongAmount, rightAmount]).map
      (fun v => (v.status, v.problems)) =
        [(.rejected, [.otherAmount "INV-1" 20000 10000]), (.rejected, [.repeated 2])] ∧
    (planFile ascii .receivable customers [recordedInvoice] [rightAmount]).map (·.status) =
      [.alreadyRecorded] := by
  decide +kernel


end Caflow.Accounting.OpeningDocuments
