import Caflow.Accounting.VoucherImport

namespace Caflow.Accounting.VoucherImport
open Dict (fromKeys mem_from_keys from_keys_nodup from_keys_nil from_keys_single)
open IsoDate (Date)
open Text (strip)

variable {casefold : String → String} {accounts : List Account}
  {existing : String → List ExistingEntry} {periodProblem : Option (Date → Option String)}
  {newId : String → String} {legs group : List Leg}

/-- A type cell that is not blank and folds to nothing. -/
def Leg.SaysNothing (casefold : String → String) (l : Leg) : Prop :=
  strip l.voucherType ≠ "" ∧ foldName casefold (strip l.voucherType) = ""

/-- A type cell that states one of the types a spreadsheet may hand-make. -/
def Leg.StatesType (casefold : String → String) (l : Leg) : Prop :=
  strip l.voucherType ≠ "" ∧
    foldName casefold (strip l.voucherType) ∈ allowedTypes.map Prod.fst

theorem normalise_none {raw : String} :
    normaliseType casefold row raw = .ok none ↔ foldName casefold raw = "" := by
  unfold normaliseType
  dsimp only
  constructor
  · intro h
    split_ifs at h with hallowed hrefused hblank
    · simp only [allowedTypes, List.map_cons, List.map_nil, List.mem_cons, List.not_mem_nil,
        or_false] at hallowed
      rcases hallowed with hk | hk | hk | hk <;> rw [hk] at h <;> exact absurd h (by decide)
    · exact hblank
  · intro h
    rw [h, if_neg (by decide), if_neg (by decide), if_pos rfl]

theorem normalise_some {raw : String} (h : normaliseType casefold row raw = .ok (some t)) :
    foldName casefold raw ∈ allowedTypes.map Prod.fst ∧ t ≠ "" := by
  unfold normaliseType at h
  dsimp only at h
  split_ifs at h with hallowed hrefused hblank
  · refine ⟨hallowed, ?_⟩
    rintro rfl
    simp only [allowedTypes, List.map_cons, List.map_nil, List.mem_cons, List.not_mem_nil,
      or_false] at hallowed
    rcases hallowed with hk | hk | hk | hk <;> rw [hk] at h <;> exact absurd h (by decide)
  · cases h

theorem normalise_states {raw : String} (row : ℤ)
    (h : foldName casefold raw ∈ allowedTypes.map Prod.fst) :
    ∃ t, normaliseType casefold row raw = .ok (some t) := by
  unfold normaliseType
  dsimp only
  rw [if_pos h]
  simp only [allowedTypes, List.map_cons, List.map_nil, List.mem_cons, List.not_mem_nil,
    or_false] at h
  rcases h with hk | hk | hk | hk <;> rw [hk] <;> exact ⟨_, rfl⟩

theorem mem_types {t : Option String} : t ∈ typesOf casefold group ↔
    ∃ l ∈ group, strip l.voucherType ≠ "" ∧
      normaliseType casefold l.row (strip l.voucherType) = .ok t := by
  rw [typesOf, mem_from_keys, List.mem_filterMap]
  refine exists_congr fun l => and_congr_right fun _ => ?_
  unfold Leg.typeRead
  split_ifs with hblank
  · simp [hblank]
  · cases normaliseType casefold l.row (strip l.voucherType) <;> simp [hblank, Except.toOption]

/-- A line states no type in a cell that is not blank. -/
theorem none_mem_types : none ∈ typesOf casefold group ↔ ∃ l ∈ group, l.SaysNothing casefold := by
  rw [mem_types]
  simp only [normalise_none, Leg.SaysNothing]

theorem some_mem_types : (∃ t, some t ∈ typesOf casefold group) ↔
    ∃ l ∈ group, l.StatesType casefold := by
  simp only [mem_types]
  constructor
  · rintro ⟨t, l, hl, hraw, ht⟩
    exact ⟨l, hl, hraw, (normalise_some ht).1⟩
  · rintro ⟨l, hl, hraw, hallowed⟩
    obtain ⟨t, ht⟩ := normalise_states l.row hallowed
    exact ⟨t, l, hl, hraw, ht⟩

theorem types_nonempty {t : String} (h : some t ∈ typesOf casefold group) : t ≠ "" := by
  obtain ⟨l, -, -, ht⟩ := mem_types.mp h
  exact (normalise_some ht).2

theorem exists_only {κ : Type*} {xs : List κ} (hne : xs ≠ []) (h : ¬ 1 < xs.length) :
    ∃ x, xs = [x] := by
  have hpos := List.length_pos_iff.mpr hne
  exact List.length_eq_one_iff.mp (by omega)

/-- Where one line states no type and no other states one, none is all there is. -/
theorem types_untyped (hnothing : ∃ l ∈ group, l.SaysNothing casefold)
    (hno : ¬ ∃ l ∈ group, l.StatesType casefold) : typesOf casefold group = [none] := by
  have hnone := none_mem_types.mpr hnothing
  refine from_keys_single.mpr ⟨fun hnil => ?_, fun t ht => ?_⟩
  · rw [typesOf, from_keys_nil.mpr hnil] at hnone
    cases hnone
  · cases t with
    | none => rfl
    | some t => exact absurd (some_mem_types.mp ⟨t, mem_from_keys.mpr ht⟩) hno

/-- Types can be sorted unless one line states none and another states one. -/
theorem sort_raises_iff : SortRaises casefold group ↔
    (∃ l ∈ group, l.SaysNothing casefold) ∧ ∃ l ∈ group, l.StatesType casefold := by
  rw [SortRaises, none_mem_types, and_comm]
  refine and_congr_right fun hnothing => ?_
  constructor
  · intro hlen
    by_contra hno
    rw [types_untyped hnothing hno] at hlen
    exact absurd hlen (by decide)
  · intro hstates
    obtain ⟨t, ht⟩ := some_mem_types.mpr hstates
    have hnone := none_mem_types.mpr hnothing
    by_contra hlen
    obtain ⟨x, hx⟩ := exists_only (List.ne_nil_of_mem ht) hlen
    rw [hx, List.mem_singleton] at hnone ht
    exact absurd (ht.trans hnone.symm) (by simp)

/-- A voucher that nothing but its type cells can be said against. -/
structure InOrder (casefold : String → String) (accounts : List Account)
    (periodProblem : Option (Date → Option String)) (group : List Leg) : Prop where
  lines : 2 ≤ group.length
  date : ∃ d, (∀ l ∈ group, parseCellDate (strip l.date) = some d) ∧
    ∀ ask, periodProblem = some ask → (ask d).getD "" = ""
  types : ∀ l ∈ group, strip l.voucherType ≠ "" →
    ∃ t, normaliseType casefold l.row (strip l.voucherType) = .ok t
  accounts : ∀ l ∈ group, ∃ a, resolveAccount casefold accounts l.row l.account = .ok a
  amounts : ∀ l ∈ group, l.counted ≠ none
  balanced : debitOf group = creditOf group

theorem date_problems_nil {l : Leg} : l.dateProblems = [] ↔ (parseCellDate (strip l.date)).isSome := by
  unfold Leg.dateProblems
  dsimp only
  split_ifs with hread hblank <;> simp [hread]

theorem amount_problems_nil {l : Leg} : l.amountProblems = [] ↔ l.counted ≠ none := by
  unfold Leg.amountProblems Leg.counted
  cases l.debitPaise with
  | none => simp
  | some d =>
    cases l.creditPaise with
    | none => simp
    | some c =>
      simp only [reduceCtorEq, if_false, List.nil_append, Option.bind_some, Option.map_some,
        Option.getD_some]
      split_ifs <;> simp <;> omega

theorem type_problems_nil {l : Leg} :
    ((l.typeRead casefold).map Leg.problemOf).getD [] = [] ↔
      (strip l.voucherType ≠ "" →
        ∃ t, normaliseType casefold l.row (strip l.voucherType) = .ok t) := by
  unfold Leg.typeRead
  split_ifs with hblank
  · simp [hblank]
  · cases normaliseType casefold l.row (strip l.voucherType) <;> simp [hblank, Leg.problemOf]

theorem account_problems_nil {read : Except Problem Account} :
    Leg.problemOf read = [] ↔ ∃ a, read = .ok a := by
  cases read <;> simp [Leg.problemOf]

/-- One day that all lines carry. -/
theorem dates_single {d : Date} (hne : group ≠ [])
    (hall : ∀ l ∈ group, (parseCellDate (strip l.date)).isSome) :
    datesOf group = [d] ↔ ∀ l ∈ group, parseCellDate (strip l.date) = some d := by
  rw [datesOf, from_keys_single]
  constructor
  · rintro ⟨-, hsame⟩ l hl
    obtain ⟨x, hx⟩ := Option.isSome_iff_exists.mp (hall l hl)
    rw [hx, hsame x (List.mem_filterMap.mpr ⟨l, hl, hx⟩)]
  · intro hd
    obtain ⟨l, hl⟩ := List.exists_mem_of_ne_nil group hne
    refine ⟨List.ne_nil_of_mem (List.mem_filterMap.mpr ⟨l, hl, hd l hl⟩), fun x hx => ?_⟩
    obtain ⟨m, hm, hx⟩ := List.mem_filterMap.mp hx
    exact Option.some.inj (hx.symm.trans (hd m hm))

/-- Nothing is said against a voucher that is in order and has one type. -/
theorem problems_nil : problemsOf casefold accounts periodProblem group = [] ↔
    InOrder casefold accounts periodProblem group ∧ ∃ t, typesOf casefold group = [t] := by
  unfold problemsOf
  simp only [List.append_eq_nil_iff, List.flatMap_eq_nil_iff, date_problems_nil, type_problems_nil,
    amount_problems_nil, account_problems_nil]
  constructor
  · rintro ⟨⟨⟨⟨⟨⟨hread, hdates⟩, htypes⟩, hone⟩, hlegs⟩, htotal⟩, hperiod⟩
    have hlines : 2 ≤ group.length ∧ debitOf group = creditOf group := by
      split_ifs at htotal with hfew hbalance
      exact ⟨not_lt.mp hfew, not_not.mp hbalance⟩
    have hne : group ≠ [] := List.ne_nil_of_length_pos (by omega)
    have hdates' : ¬ 1 < (datesOf group).length := by
      intro h
      simp [h] at hdates
    have hsome : datesOf group ≠ [] := by
      obtain ⟨l, hl⟩ := List.exists_mem_of_ne_nil group hne
      obtain ⟨d, hd⟩ := Option.isSome_iff_exists.mp (hread l hl)
      exact List.ne_nil_of_mem (mem_from_keys.mpr (List.mem_filterMap.mpr ⟨l, hl, hd⟩))
    obtain ⟨d, hd⟩ := exists_only hsome hdates'
    refine ⟨⟨hlines.1, ⟨d, (dates_single hne hread).mp hd, fun ask hask => ?_⟩, htypes,
      fun l hl => (hlegs l hl).1, fun l hl => (hlegs l hl).2, hlines.2⟩, ?_⟩
    · rw [hd, hask] at hperiod
      by_contra hclosed
      cases hanswer : ask d with
      | none => simp [hanswer] at hclosed
      | some why =>
        have hwhy : why ≠ "" := by simpa [hanswer] using hclosed
        simp [only, hanswer, hwhy] at hperiod
    · have hmany : ¬ 1 < (typesOf casefold group).length := by
        intro h
        simp [h] at hone
      refine exists_only (fun hnone => ?_) hmany
      rw [if_neg hmany] at hone
      -- a cell that is not blank was read, and would be among the types
      have hblank : ∀ l ∈ group, strip l.voucherType = "" := by
        intro l hl
        by_contra hraw
        obtain ⟨t, ht⟩ := htypes l hl hraw
        have hmem := mem_types.mpr ⟨l, hl, hraw, ht⟩
        rw [hnone] at hmem
        cases hmem
      rw [if_pos ⟨hnone, fun ⟨l, hl, hraw⟩ => hraw (hblank l hl)⟩] at hone
      cases hone
  · rintro ⟨h, t, ht⟩
    obtain ⟨d, hd, hperiod⟩ := h.date
    have hlines := h.lines
    have hne : group ≠ [] := List.ne_nil_of_length_pos (by omega)
    have hread : ∀ l ∈ group, (parseCellDate (strip l.date)).isSome := fun l hl => by
      rw [hd l hl]
      rfl
    have hdates := (dates_single hne hread).mpr hd
    refine ⟨⟨⟨⟨⟨⟨hread, ?_⟩, h.types⟩, ?_⟩, fun l hl => ⟨h.accounts l hl, h.amounts l hl⟩⟩, ?_⟩, ?_⟩
    · simp [hdates]
    · simp [ht]
    · rw [if_neg (by omega), if_neg (not_not.mpr h.balanced)]
    · rw [hdates]
      cases hask : periodProblem with
      | none => simp
      | some ask =>
        have hopen := hperiod ask hask
        cases hanswer : ask d with
        | none => simp [only, hanswer]
        | some why =>
          have hwhy : why = "" := by simpa [hanswer] using hopen
          simp [only, hanswer, hwhy]

/-- A voucher is new when nothing is said against it and its number is on no entry. -/
theorem judge_new {vno : String} :
    (judge casefold accounts existing periodProblem vno group).status = .new ↔
      vno ≠ "" ∧ problemsOf casefold accounts periodProblem group = [] ∧ existing vno = [] := by
  unfold judge
  dsimp only
  split_ifs with hblank hproblems
  · simp [hblank]
  · simp [hproblems]
  · rw [not_not] at hproblems
    cases hentry : existing vno with
    | nil => simp [hblank, hproblems]
    | cons e rest =>
      simp only [reduceCtorEq, and_false, iff_false]
      cases clashWith vno (only (datesOf group)) (only (typesOf casefold group)).join
        (debitOf group) e with
      | none => simp
      | some clash => simp

@[simp] theorem judge_number (vno : String) :
    (judge casefold accounts existing periodProblem vno group).voucherNo = vno := by
  unfold judge
  dsimp only
  split_ifs with hblank hproblems
  · rfl
  · rfl
  · cases existing vno with
    | nil => rfl
    | cons e rest =>
      cases hclash : clashWith vno (only (datesOf group)) (only (typesOf casefold group)).join
        (debitOf group) e <;> simp [hclash]

@[simp] theorem judge_rows (vno : String) :
    (judge casefold accounts existing periodProblem vno group).rows =
      fromKeys (group.map Leg.row) := by
  unfold judge
  dsimp only
  split_ifs with hblank hproblems
  · rfl
  · rfl
  · cases existing vno with
    | nil => rfl
    | cons e rest =>
      cases hclash : clashWith vno (only (datesOf group)) (only (typesOf casefold group)).join
        (debitOf group) e <;> simp [hclash]

/-- A voucher is judged by the entries under its own number. -/
theorem judge_congr {existing' : String → List ExistingEntry} {vno : String}
    (h : existing vno = existing' vno) :
    judge casefold accounts existing periodProblem vno group =
      judge casefold accounts existing' periodProblem vno group := by
  unfold judge
  rw [h]

/-- A new voucher's day, its type and its lines. -/
theorem judge_taken {vno : String} {d : Date} {t : Option String}
    (hnew : (judge casefold accounts existing periodProblem vno group).status = .new)
    (hd : datesOf group = [d]) (ht : typesOf casefold group = [t]) :
    (judge casefold accounts existing periodProblem vno group).entryDate = some d ∧
      (judge casefold accounts existing periodProblem vno group).entryType = t ∧
      (judge casefold accounts existing periodProblem vno group).lines =
        linesOf casefold accounts group := by
  obtain ⟨hblank, hproblems, hentry⟩ := judge_new.mp hnew
  unfold judge
  dsimp only
  rw [if_neg hblank, if_neg (not_not.mpr hproblems), hentry, hd, ht]
  exact ⟨rfl, rfl, rfl⟩

/-- The lines of a voucher in order are its counted amounts, each on its ledger. -/
theorem lines_amounts (haccounts : ∀ l ∈ group, ∃ a, resolveAccount casefold accounts l.row l.account = .ok a) :
    (linesOf casefold accounts group).map (fun x => (x.debitPaise, x.creditPaise)) =
      group.filterMap Leg.counted := by
  induction group with
  | nil => rfl
  | cons l group ih =>
    obtain ⟨⟨a, ha⟩, hrest⟩ := List.forall_mem_cons.mp haccounts
    have htail := ih hrest
    unfold linesOf at htail ⊢
    rw [List.filterMap_cons, List.filterMap_cons, ha]
    cases l.counted with
    | none => exact htail
    | some amounts => simpa [Except.toOption] using htail

theorem counted_sides {l : Leg} (h : l.counted = some (d, c)) : (0 < d ∧ c = 0) ∨ (d = 0 ∧ 0 < c) := by
  unfold Leg.counted at h
  obtain ⟨d', -, h⟩ := Option.bind_eq_some_iff.mp h
  obtain ⟨c', -, h⟩ := Option.bind_eq_some_iff.mp h
  split_ifs at h with hbad
  obtain ⟨rfl, rfl⟩ := Prod.mk.inj (Option.some.inj h)
  omega

theorem mem_groups {g : String × List Leg} : g ∈ groups legs ↔
    g.1 ∈ legs.map Leg.number ∧ g.2 = legs.filter (·.number = g.1) := by
  rw [groups, List.mem_map]
  constructor
  · rintro ⟨vno, hvno, rfl⟩
    exact ⟨mem_from_keys.mp hvno, rfl⟩
  · rintro ⟨hvno, hgroup⟩
    exact ⟨g.1, mem_from_keys.mpr hvno, by rw [← hgroup]⟩

theorem groups_numbers (legs : List Leg) : (groups legs).map Prod.fst = fromKeys (legs.map Leg.number) := by
  simp [groups, Function.comp_def]

/-- What makes a voucher that is planned as new sound. -/
structure SoundVoucher (existing : String → List ExistingEntry) (legs : List Leg)
    (v : VoucherVerdict) : Prop where
  lines : 2 ≤ v.lines.length
  sided : ∀ x ∈ v.lines, (0 < x.debitPaise ∧ x.creditPaise = 0) ∨
    (x.debitPaise = 0 ∧ 0 < x.creditPaise)
  balanced : (v.lines.map Line.debitPaise).sum = (v.lines.map Line.creditPaise).sum
  dated : ∃ d : Date, v.entryDate = some d ∧
    ∀ l ∈ legs, l.number = v.voucherNo → parseCellDate (strip l.date) = some d
  free : existing v.voucherNo = []

/-- A voucher in order is on one day. -/
theorem InOrder.single_date (h : InOrder casefold accounts periodProblem group) :
    ∃ d, datesOf group = [d] ∧ ∀ l ∈ group, parseCellDate (strip l.date) = some d := by
  obtain ⟨d, hd, -⟩ := h.date
  have hlines := h.lines
  refine ⟨d, (dates_single (List.ne_nil_of_length_pos (by omega)) fun l hl => ?_).mpr hd, hd⟩
  rw [hd l hl]
  rfl

/-- The lines of a voucher in order come to its totals. -/
theorem InOrder.totals (h : InOrder casefold accounts periodProblem group) :
    ((linesOf casefold accounts group).map Line.debitPaise).sum = debitOf group ∧
      ((linesOf casefold accounts group).map Line.creditPaise).sum = creditOf group := by
  have hamounts := lines_amounts h.accounts
  rw [debitOf, creditOf, ← hamounts, List.map_map, List.map_map]
  exact ⟨rfl, rfl⟩

theorem new_sound {g : String × List Leg} (hg : g ∈ groups legs)
    (hnew : (judge casefold accounts existing periodProblem g.1 g.2).status = .new) :
    SoundVoucher existing legs (judge casefold accounts existing periodProblem g.1 g.2) := by
  obtain ⟨-, hproblems, hentry⟩ := judge_new.mp hnew
  obtain ⟨horder, t, ht⟩ := problems_nil.mp hproblems
  obtain ⟨d, hdates, hd⟩ := horder.single_date
  obtain ⟨hdate, -, hlines⟩ := judge_taken hnew hdates ht
  have hamounts := lines_amounts horder.accounts
  constructor
  · have hlength : (linesOf casefold accounts g.2).length = g.2.length := by
      rw [← List.length_map (f := fun x : Line => (x.debitPaise, x.creditPaise)), hamounts]
      exact List.filterMap_length_eq_length.mpr fun l hl =>
        Option.isSome_iff_ne_none.mpr (horder.amounts l hl)
    rw [hlines, hlength]
    exact horder.lines
  · intro x hx
    rw [hlines] at hx
    have hpair : (x.debitPaise, x.creditPaise) ∈ g.2.filterMap Leg.counted :=
      hamounts ▸ List.mem_map.mpr ⟨x, hx, rfl⟩
    obtain ⟨l, -, hl⟩ := List.mem_filterMap.mp hpair
    exact counted_sides hl
  · rw [hlines, horder.totals.1, horder.totals.2, horder.balanced]
  · refine ⟨d, hdate, fun l hl hnumber => hd l ?_⟩
    rw [judge_number] at hnumber
    rw [(mem_groups.mp hg).2]
    exact List.mem_filter.mpr ⟨hl, by simpa using hnumber⟩
  · rw [judge_number]
    exact hentry

/-- A leg is in the group of its number. -/
theorem leg_grouped {l : Leg} (hl : l ∈ legs) :
    (l.number, legs.filter (·.number = l.number)) ∈ groups legs ∧
      l ∈ legs.filter (·.number = l.number) :=
  ⟨mem_groups.mpr ⟨List.mem_map_of_mem hl, rfl⟩, List.mem_filter.mpr ⟨hl, by simp⟩⟩

/-- Only the group of its own number has a say in a verdict of that number. -/
theorem groups_unique {g g' : String × List Leg} (hg : g ∈ groups legs) (hg' : g' ∈ groups legs)
    (h : g.1 = g'.1) : g = g' := by
  refine Prod.ext h ?_
  rw [(mem_groups.mp hg).2, (mem_groups.mp hg').2, h]

/-- The entry that a new voucher is recorded as is the voucher again, where it has a type. -/
theorem recorded_same {vno : String} {d : Date} {t : Option String}
    (hnew : (judge casefold accounts existing periodProblem vno group).status = .new)
    (hd : datesOf group = [d]) (ht : typesOf casefold group = [t]) :
    (recordOf newId (judge casefold accounts existing periodProblem vno group)).SameAs
      (some d) t (debitOf group) ↔ t ≠ none := by
  obtain ⟨-, hproblems, -⟩ := judge_new.mp hnew
  obtain ⟨horder, -⟩ := problems_nil.mp hproblems
  obtain ⟨hdate, htype, hlines⟩ := judge_taken hnew hd ht
  have hcut : (Date.text d).toList.take 10 = (Date.text d).toList :=
    List.take_of_length_le (by simp [Date.text])
  unfold ExistingEntry.SameAs recordOf
  rw [hdate, htype, hlines, horder.totals.1]
  simp only [Option.map_some, Option.getD_some, hcut, String.ofList_toList, true_and, and_true]
  cases t with
  | none => simp
  | some t =>
    have hmem : some t ∈ typesOf casefold group := by simp [ht]
    have hne : t ≠ "" := types_nonempty hmem
    simp [hne]

/-- The verdicts of a plan whose types can be sorted. -/
def verdictsOf (casefold : String → String) (accounts : List Account)
    (existing : String → List ExistingEntry) (periodProblem : Option (Date → Option String))
    (legs : List Leg) : List VoucherVerdict :=
  (groups legs).map fun g => judge casefold accounts existing periodProblem g.1 g.2

theorem plan_ok : plan casefold accounts existing periodProblem legs = .ok verdicts ↔
    (¬ ∃ g ∈ groups legs, g.1 ≠ "" ∧ SortRaises casefold g.2) ∧
      verdicts = verdictsOf casefold accounts existing periodProblem legs := by
  unfold plan
  split_ifs with hraises
  · simp [hraises]
  · rw [Except.ok.injEq, eq_comm]
    exact (and_iff_right hraises).symm

theorem filter_number {g : String × List Leg} (hg : g ∈ groups legs) :
    (groups legs).filter (·.1 = g.1) = [g] := by
  have hnodup : (groups legs).Nodup := by
    apply List.Nodup.of_map Prod.fst
    rw [groups_numbers]
    exact from_keys_nodup _
  have hsame : (groups legs).filter (·.1 = g.1) = (groups legs).filter (· = g) := by
    refine List.filter_congr fun g' hg' => decide_eq_decide.mpr ⟨groups_unique hg' hg, ?_⟩
    rintro rfl
    rfl
  rw [hsame, List.filter_eq, List.count_eq_one_of_mem hnodup hg]
  rfl

/-- What stands under a voucher's number once the new vouchers are recorded. -/
theorem after_recording {g : String × List Leg} (hg : g ∈ groups legs) :
    afterRecording newId (verdictsOf casefold accounts existing periodProblem legs) existing g.1 =
      if (judge casefold accounts existing periodProblem g.1 g.2).status = .new then
        [recordOf newId (judge casefold accounts existing periodProblem g.1 g.2)]
      else existing g.1 := by
  have hrecorded : (verdictsOf casefold accounts existing periodProblem legs).filter
      (fun v => v.status = .new ∧ v.voucherNo = g.1) =
      ([g].filter fun g' =>
        (judge casefold accounts existing periodProblem g'.1 g'.2).status = .new).map
        fun g' => judge casefold accounts existing periodProblem g'.1 g'.2 := by
    rw [← filter_number hg, verdictsOf, List.filter_map, List.filter_filter]
    simp [Function.comp_def, Bool.decide_and]
  unfold afterRecording
  rw [hrecorded]
  split_ifs with hnew
  · rw [(judge_new.mp hnew).2.2]
    simp [hnew]
  · simp [hnew]

/-- A voucher with one entry under its number is that entry, or clashes with it. -/
theorem judge_found {vno : String} {e : ExistingEntry} (hblank : vno ≠ "")
    (hproblems : problemsOf casefold accounts periodProblem group = [])
    (hentry : existing vno = [e]) (hlive : e.isReversed = false) :
    (judge casefold accounts existing periodProblem vno group).status =
      if e.SameAs (only (datesOf group)) (only (typesOf casefold group)).join (debitOf group)
      then .alreadyRecorded else .rejected := by
  unfold judge
  dsimp only
  rw [if_neg hblank, if_neg (not_not.mpr hproblems), hentry]
  dsimp only
  unfold clashWith
  rw [hlive, if_neg Bool.false_ne_true]
  by_cases hsame : e.SameAs (only (datesOf group)) (only (typesOf casefold group)).join (debitOf group)
  · rw [if_pos hsame, if_pos hsame]
  · rw [if_neg hsame, if_neg hsame]

/-- On the second run a new voucher is recorded already where it has a type, and clashes with itself
where it has none; any other is judged as before. -/
theorem judge_again {g : String × List Leg} (hg : g ∈ groups legs) :
    (judge casefold accounts
        (afterRecording newId (verdictsOf casefold accounts existing periodProblem legs) existing)
        periodProblem g.1 g.2).status =
      if (judge casefold accounts existing periodProblem g.1 g.2).status = .new then
        if typesOf casefold g.2 = [none] then .rejected else .alreadyRecorded
      else (judge casefold accounts existing periodProblem g.1 g.2).status := by
  have hafter : afterRecording newId
      (verdictsOf casefold accounts existing periodProblem legs) existing g.1 = _ :=
    after_recording hg
  by_cases hnew : (judge casefold accounts existing periodProblem g.1 g.2).status = .new
  · obtain ⟨hblank, hproblems, -⟩ := judge_new.mp hnew
    obtain ⟨horder, t, ht⟩ := problems_nil.mp hproblems
    obtain ⟨d, hdates, -⟩ := horder.single_date
    rw [if_pos hnew] at hafter
    have hsame : (recordOf newId (judge casefold accounts existing periodProblem g.1 g.2)).SameAs
        (some d) t (debitOf g.2) ↔ t ≠ none := recorded_same hnew hdates ht
    rw [judge_found hblank hproblems hafter rfl, if_pos hnew, hdates, ht]
    cases t with
    | none => exact (if_neg (mt hsame.mp (not_not.mpr rfl))).trans (if_pos rfl).symm
    | some t => exact (if_pos (hsame.mpr (by simp))).trans (if_neg (by simp)).symm
  · rw [if_neg hnew] at hafter
    rw [if_neg hnew, judge_congr hafter]

/-- Every leg belongs to one verdict, every voucher planned as new is sound, and once the new vouchers
are recorded the same sheet has each of them recorded already and nothing new. -/
def SoundAndIdempotent (casefold : String → String) (accounts : List Account)
    (existing : String → List ExistingEntry) (periodProblem : Option (Date → Option String))
    (newId : String → String) (legs : List Leg) : Prop :=
  ∃ verdicts, plan casefold accounts existing periodProblem legs = .ok verdicts ∧
    (verdicts.map VoucherVerdict.voucherNo).Nodup ∧
    (∀ l ∈ legs, ∃! v, v ∈ verdicts ∧ v.voucherNo = l.number ∧ l.row ∈ v.rows) ∧
    (∀ v ∈ verdicts, v.status = .new → SoundVoucher existing legs v) ∧
    ∃ again,
      plan casefold accounts (afterRecording newId verdicts existing) periodProblem legs = .ok again ∧
      (∀ v ∈ verdicts, v.status = .new →
        ∃ w ∈ again, w.voucherNo = v.voucherNo ∧ w.status = .alreadyRecorded) ∧
      ∀ w ∈ again, w.status ≠ .new

theorem mem_verdicts : v ∈ verdictsOf casefold accounts existing periodProblem legs ↔
    ∃ g ∈ groups legs, judge casefold accounts existing periodProblem g.1 g.2 = v := List.mem_map

/-- A voucher that is in order but for a type that says nothing is not known again. -/
theorem untyped_not_known {g : String × List Leg} (hg : g ∈ groups legs) (hblank : g.1 ≠ "")
    (horder : InOrder casefold accounts periodProblem g.2) (hfree : existing g.1 = [])
    (huntyped : typesOf casefold g.2 = [none]) :
    ¬ SoundAndIdempotent casefold accounts existing periodProblem newId legs := by
  rintro ⟨verdicts, hplan, -, -, -, again, hagain, hmarked, -⟩
  obtain ⟨-, rfl⟩ := plan_ok.mp hplan
  obtain ⟨-, rfl⟩ := plan_ok.mp hagain
  have hnew : (judge casefold accounts existing periodProblem g.1 g.2).status = .new :=
    judge_new.mpr ⟨hblank, problems_nil.mpr ⟨horder, none, huntyped⟩, hfree⟩
  obtain ⟨w, hw, hnumber, hstatus⟩ := hmarked _ (mem_verdicts.mpr ⟨g, hg, rfl⟩) hnew
  obtain ⟨g', hg', rfl⟩ := mem_verdicts.mp hw
  rw [judge_number, judge_number] at hnumber
  obtain rfl := groups_unique hg' hg hnumber
  rw [judge_again hg, if_pos hnew, if_pos huntyped] at hstatus
  cases hstatus

/-- Every leg is in the one verdict of its number. -/
theorem leg_verdict {l : Leg} (hl : l ∈ legs) :
    ∃! v, v ∈ verdictsOf casefold accounts existing periodProblem legs ∧ v.voucherNo = l.number ∧
      l.row ∈ v.rows := by
  obtain ⟨hgroup, hmem⟩ := leg_grouped hl
  refine ⟨judge casefold accounts existing periodProblem l.number
    (legs.filter (·.number = l.number)), ⟨mem_verdicts.mpr ⟨_, hgroup, rfl⟩, judge_number _, ?_⟩, ?_⟩
  · rw [judge_rows]
    exact mem_from_keys.mpr (List.mem_map_of_mem hmem)
  · rintro v ⟨hv, hnumber, -⟩
    obtain ⟨g, hg, rfl⟩ := mem_verdicts.mp hv
    rw [judge_number] at hnumber
    rw [groups_unique hg hgroup hnumber]

/-- An import is sound, and the same sheet again plans nothing new, just when no voucher of the sheet
has a type cell that is not blank yet folds to nothing, beside one that states a type or where the
voucher is otherwise in order and its number free. -/
theorem sound_and_idempotent_iff (casefold : String → String) (accounts : List Account)
    (existing : String → List ExistingEntry) (periodProblem : Option (Date → Option String))
    (newId : String → String) (legs : List Leg) :
    SoundAndIdempotent casefold accounts existing periodProblem newId legs ↔
      ∀ g ∈ groups legs, g.1 ≠ "" → ∀ l ∈ g.2, l.SaysNothing casefold →
        (¬ ∃ m ∈ g.2, m.StatesType casefold) ∧
          ¬ (InOrder casefold accounts periodProblem g.2 ∧ existing g.1 = []) := by
  constructor
  · intro hsound g hg hblank l hl hnothing
    have hno : ¬ ∃ m ∈ g.2, m.StatesType casefold := by
      intro hstates
      obtain ⟨verdicts, hplan, -⟩ := hsound
      exact (plan_ok.mp hplan).1 ⟨g, hg, hblank, sort_raises_iff.mpr ⟨⟨l, hl, hnothing⟩, hstates⟩⟩
    exact ⟨hno, fun ⟨horder, hfree⟩ => untyped_not_known hg hblank horder hfree
      (types_untyped ⟨l, hl, hnothing⟩ hno) hsound⟩
  · intro hcells
    have hsorted : ¬ ∃ g ∈ groups legs, g.1 ≠ "" ∧ SortRaises casefold g.2 := by
      rintro ⟨g, hg, hblank, hraises⟩
      obtain ⟨⟨l, hl, hnothing⟩, hstates⟩ := sort_raises_iff.mp hraises
      exact (hcells g hg hblank l hl hnothing).1 hstates
    -- a new voucher has a type
    have htyped : ∀ g ∈ groups legs,
        (judge casefold accounts existing periodProblem g.1 g.2).status = .new →
        typesOf casefold g.2 ≠ [none] := by
      intro g hg hnew huntyped
      obtain ⟨hblank, hproblems, hfree⟩ := judge_new.mp hnew
      obtain ⟨l, hl, hnothing⟩ := none_mem_types.mp (huntyped ▸ List.mem_singleton.mpr rfl)
      exact (hcells g hg hblank l hl hnothing).2 ⟨(problems_nil.mp hproblems).1, hfree⟩
    refine ⟨_, plan_ok.mpr ⟨hsorted, rfl⟩, ?_, fun l hl => leg_verdict hl, fun v hv hnew => ?_,
      _, plan_ok.mpr ⟨hsorted, rfl⟩, fun v hv hnew => ?_, fun w hw => ?_⟩
    · have hnumbers : (verdictsOf casefold accounts existing periodProblem legs).map
          VoucherVerdict.voucherNo = (groups legs).map Prod.fst := by
        rw [verdictsOf, List.map_map]
        exact List.map_congr_left fun g _ => judge_number g.1
      rw [hnumbers, groups_numbers]
      exact from_keys_nodup _
    · obtain ⟨g, hg, rfl⟩ := mem_verdicts.mp hv
      exact new_sound hg hnew
    · obtain ⟨g, hg, rfl⟩ := mem_verdicts.mp hv
      refine ⟨_, mem_verdicts.mpr ⟨g, hg, rfl⟩, by rw [judge_number, judge_number], ?_⟩
      rw [judge_again hg, if_pos hnew, if_neg (htyped g hg hnew)]
    · obtain ⟨g, hg, rfl⟩ := mem_verdicts.mp hw
      rw [judge_again hg]
      split_ifs with hnew huntyped
      · simp
      · simp
      · exact hnew

def smallChart : List Account :=
  [⟨"bank", some "1000", some "Bank", some true⟩, ⟨"rent", some "5000", some "Rent", none⟩]

/-- One voucher with a full stop for its type. -/
def dottedSheet : List Leg :=
  [⟨2, "JV-1", "01-04-2026", ".", "Rent", some 50000, some 0, none, none⟩,
    ⟨3, "JV-1", "01-04-2026", ".", "1000", some 0, some 50000, none, none⟩]

/-- It is recorded as a journal, and as a voucher without a type it clashes with that. -/
theorem dotted_sheet_clashes :
    ¬ SoundAndIdempotent Text.lower smallChart (fun _ => []) none id dottedSheet := by
  have hgroup : ("JV-1", dottedSheet) ∈ groups dottedSheet := by decide
  have hday : ∀ l ∈ dottedSheet, parseCellDate (strip l.date) = some (.of 2026 4 1) := by decide
  have haccounts : ∀ l ∈ dottedSheet,
      (resolveAccount Text.lower smallChart l.row l.account).toOption.isSome := by decide
  have htypes : ∀ l ∈ dottedSheet, normaliseType Text.lower l.row (strip l.voucherType) = .ok none :=
    fun l hl => normalise_none.mpr ((show ∀ l ∈ dottedSheet,
      foldName Text.lower (strip l.voucherType) = "" by decide) l hl)
  refine untyped_not_known hgroup (by simp) ⟨by decide, ⟨_, hday, by simp⟩,
    fun l hl _ => ⟨none, htypes l hl⟩, fun l hl => ?_, by decide, by decide⟩ rfl (by decide)
  obtain ⟨a, ha⟩ := Option.isSome_iff_exists.mp (haccounts l hl)
  cases hread : resolveAccount Text.lower smallChart l.row l.account with
  | ok account => exact ⟨account, rfl⟩
  | error why => simp [hread, Except.toOption] at ha

end Caflow.Accounting.VoucherImport
