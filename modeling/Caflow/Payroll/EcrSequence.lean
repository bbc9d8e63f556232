import Caflow.Lib.Dict
import Caflow.Lib.SortByKey
import Caflow.Payroll.Ecr

set_option linter.all false

namespace Caflow.Payroll.EcrSequence

inductive ReturnType where
  | regular
  | supplementary
  | revised
  deriving DecidableEq

/-- Only an approved return clears a month. -/
inductive FilingStatus where
  | submitted
  | approved
  deriving DecidableEq

/-- One member's figures as they were on a return already filed. -/
structure FiledMember where
  uan : String
  epfWages : ℤ
  epfContribution : ℤ
  epsContribution : ℤ
  deriving DecidableEq

def FiledMember.figures (m : FiledMember) : ℤ × ℤ × ℤ :=
  (m.epfWages, m.epfContribution, m.epsContribution)

structure RecordedFiling where
  wageMonth : String
  returnType : ReturnType
  status : FilingStatus
  members : List FiledMember

def RecordedFiling.isApproved (f : RecordedFiling) : Bool := f.status = .approved

/-- What a month still needs, and the evidence for saying so. -/
structure ReturnDecision where
  wageMonth : String
  requiredReturns : List ReturnType
  reason : String
  newMembers : List String
  changedMembers : List String
  withdrawnMembers : List String

def ReturnDecision.nothingToFile (d : ReturnDecision) : Bool := d.requiredReturns.isEmpty

/-- Where one wage month sits in the client's filing order. -/
structure Sequence where
  wageMonth : String
  outstanding : List String
  blocking : List String
  monthsKnownFrom : Option String

/-- A year, a dash and a month; the pattern's end also admits a line end after them. -/
def isMonth (isDigit : Char → Bool) (value : String) : Bool :=
  match value.toList with
  | y₁ :: y₂ :: y₃ :: y₄ :: '-' :: m₁ :: m₂ :: rest =>
    [y₁, y₂, y₃, y₄].all isDigit &&
      ((m₁ = '0' && '1' ≤ m₂ && m₂ ≤ '9') || (m₁ = '1' && '0' ≤ m₂ && m₂ ≤ '2')) &&
      (rest = [] || rest = ['\n'])
  | _ => false

section
variable (isDigit : Char → Bool)

/-- Month labels in order, each once; anything that is not one is dropped. -/
def months (values : List String) : List String :=
  (values.filter (isMonth isDigit)).dedup.insertionSort (· ≤ ·)

def approvedRegularMonths (filings : List RecordedFiling) : List String :=
  (filings.filter fun f => f.returnType = .regular && f.isApproved &&
    isMonth isDigit f.wageMonth).map (·.wageMonth)

def outstandingMonths (finalisedMonths : List String) (filings : List RecordedFiling) :
    List String :=
  (months isDigit finalisedMonths).filter fun m => m ∉ approvedRegularMonths isDigit filings

def sequenceFor (wageMonth : String) (finalisedMonths : List String)
    (filings : List RecordedFiling) : Sequence :=
  let known := months isDigit finalisedMonths
  let outstanding := outstandingMonths isDigit known filings
  { wageMonth := wageMonth
    outstanding := outstanding
    blocking := outstanding.filter fun m => isMonth isDigit wageMonth && m < wageMonth
    monthsKnownFrom := known.head? }

end

def byUan (members : List FiledMember) : List (String × FiledMember) :=
  Dict.fromPairs (members.map fun m => (m.uan, m))

def sortedKeys {β : Type} (entries : List (String × β)) : List String :=
  (entries.map Prod.fst).insertionSort (· ≤ ·)

def approvedFor (wageMonth : String) (filings : List RecordedFiling) : List RecordedFiling :=
  filings.filter fun f => f.wageMonth = wageMonth && f.isApproved

/-- What the approved returns have said, a later reading over an earlier one. -/
def filedBy (approved : List RecordedFiling) : List (String × FiledMember) :=
  byUan (approved.flatMap (·.members))

def changedEntries (live filed : List (String × FiledMember)) :
    List (String × FiledMember × FiledMember) :=
  (Dict.common live filed).filter fun t => t.2.1.figures ≠ t.2.2.figures

def decisionReason (new changed withdrawn : ℕ) : String :=
  if new = 0 ∧ changed = 0 then
    "This month's Regular return is approved and every member on it still matches the books. " ++
      "There is nothing further to file" ++
      (if withdrawn ≠ 0 then ", but " ++ toString withdrawn ++
        " member(s) on the filed return are no longer in this run — see withdrawn_members."
      else ".")
  else
    let parts :=
      (if new ≠ 0 then [toString new ++ " member(s) are not on any approved return for this " ++
        "month, which is a Supplementary return"] else []) ++
      (if changed ≠ 0 then [toString changed ++ " member(s) have figures that differ from " ++
        "what was filed, which is a Revised return"] else [])
    "This month's Regular return is approved. " ++ "; ".intercalate parts ++ "." ++
      (if new ≠ 0 ∧ changed ≠ 0 then " Both are listed because a month can need both; this " ++
        "module does not know which order EPFO wants them in." else "")

/-- Which returns a month still needs. Only approved filings have covered anything. -/
def decideReturns (wageMonth : String) (members : List FiledMember)
    (filings : List RecordedFiling) : ReturnDecision :=
  let live := byUan members
  let approved := approvedFor wageMonth filings
  if approved.any (·.returnType = .regular) then
    let filed := filedBy approved
    let new := sortedKeys (Dict.without live filed)
    let changed := sortedKeys (changedEntries live filed)
    let withdrawn := sortedKeys (Dict.without filed live)
    { wageMonth := wageMonth
      requiredReturns := (if new ≠ [] then [.supplementary] else []) ++
        (if changed ≠ [] then [.revised] else [])
      reason := decisionReason new.length changed.length withdrawn.length
      newMembers := new
      changedMembers := changed
      withdrawnMembers := withdrawn }
  else
    { wageMonth := wageMonth
      requiredReturns := [.regular]
      reason := "No approved Regular return is recorded for this month, so this file is the " ++
        "Regular return."
      newMembers := []
      changedMembers := []
      withdrawnMembers := [] }

/-- What one return says of a member. -/
def RecordedFiling.carries (f : RecordedFiling) (uan : String) : Option FiledMember :=
  Dict.get (byUan f.members) uan

section
variable {approved filings filings' : List RecordedFiling} {f : RecordedFiling}
  {members : List FiledMember} {m said : FiledMember} {u w : String}

theorem get_by_uan (members : List FiledMember) (u : String) :
    Dict.get (byUan members) u = Dict.last (members.map fun m => (m.uan, m)) u :=
  Dict.get_from_pairs _ u

theorem by_uan_keyed (members : List FiledMember) : Dict.Keyed (byUan members) :=
  Dict.keyed_from_pairs _

theorem filed_get (approved : List RecordedFiling) (u : String) :
    Dict.get (filedBy approved) u =
      Dict.last (approved.flatMap fun f => f.members.map fun m => (m.uan, m)) u := by
  rw [filedBy, get_by_uan, List.map_flatMap]

theorem get_by_uan_none : Dict.get (byUan members) u = none ↔ ∀ m ∈ members, m.uan ≠ u := by
  simp [get_by_uan, Dict.last_none]

theorem get_by_uan_some (h : Dict.get (byUan members) u = some m) : m ∈ members ∧ m.uan = u := by
  have hmem := Dict.mem_from_pairs ((Dict.get_some (by_uan_keyed members)).mp h)
  obtain ⟨m', hm', hpair⟩ := List.mem_map.mp hmem
  cases hpair
  exact ⟨hm', rfl⟩

theorem filed_none : Dict.get (filedBy approved) u = none ↔ ∀ f ∈ approved, f.carries u = none := by
  simp only [filedBy, RecordedFiling.carries, get_by_uan_none, List.mem_flatMap]
  constructor
  · exact fun h f hf m hm => h m ⟨f, hf, hm⟩
  · intro h m hnamed
    obtain ⟨f, hf, hm⟩ := hnamed
    exact h f hf m hm

/-- What is filed of a member is what some approved return says. -/
theorem filed_from (h : Dict.get (filedBy approved) u = some said) :
    ∃ f ∈ approved, f.carries u = some said := by
  rw [filed_get] at h
  obtain ⟨f, hf, hlast⟩ := Dict.last_of_group h
  exact ⟨f, hf, (get_by_uan _ u).trans hlast⟩

/-- The return read last has the last word on the members it names. -/
theorem filed_last (h : f.carries u = some said) :
    Dict.get (filedBy (approved ++ [f])) u = some said := by
  rw [RecordedFiling.carries, get_by_uan] at h
  rw [filed_get, List.flatMap_append, Dict.last_append, List.flatMap_singleton, h, Option.some_or]

theorem approved_perm (h : filings.Perm filings') (w : String) :
    (approvedFor w filings).Perm (approvedFor w filings') := h.filter _

theorem mem_approved : f ∈ approvedFor w filings ↔
    f ∈ filings ∧ f.wageMonth = w ∧ f.isApproved := by
  simp [approvedFor]

/-- Any approved return can be the one that is read last. -/
theorem read_last (hf : f ∈ approvedFor w filings) :
    ∃ order rest, order.Perm filings ∧ approvedFor w order = rest ++ [f] := by
  obtain ⟨hmem, happroved⟩ := mem_approved.mp hf
  obtain ⟨before, after, rfl⟩ := List.append_of_mem hmem
  refine ⟨before ++ after ++ [f], approvedFor w (before ++ after), ?_, ?_⟩
  · simpa using (List.perm_append_singleton f after).append_left before
  · simp [approvedFor, happroved]

theorem mem_changed {live filed : List (String × FiledMember)} (hlive : Dict.Keyed live) :
    u ∈ (changedEntries live filed).map Prod.fst ↔ ∃ m said, Dict.get live u = some m ∧
      Dict.get filed u = some said ∧ m.figures ≠ said.figures := by
  constructor
  · intro h
    obtain ⟨⟨u', m, said⟩, ht, rfl⟩ := List.mem_map.mp h
    obtain ⟨hcommon, hne⟩ := List.mem_filter.mp ht
    obtain ⟨hm, hsaid⟩ := (Dict.mem_common hlive).mp hcommon
    exact ⟨m, said, hm, hsaid, by simpa using hne⟩
  · rintro ⟨m, said, hm, hsaid, hne⟩
    refine List.mem_map.mpr ⟨(u, m, said), List.mem_filter.mpr ⟨?_, by simpa using hne⟩, rfl⟩
    exact (Dict.mem_common hlive).mpr ⟨hm, hsaid⟩

theorem changed_nodup {live : List (String × FiledMember)} (hlive : Dict.Keyed live)
    (filed : List (String × FiledMember)) :
    ((changedEntries live filed).map Prod.fst).Nodup :=
  (List.filter_sublist.map Prod.fst).nodup (Dict.common_keyed hlive)

theorem sorted_keys_nil {β : Type} {entries : List (String × β)} :
    sortedKeys entries = [] ↔ entries = [] := by
  simp [sortedKeys, ← List.length_eq_zero_iff]

theorem mem_sorted_keys {β : Type} {entries : List (String × β)} :
    u ∈ sortedKeys entries ↔ u ∈ entries.map Prod.fst := by
  simp [sortedKeys]

/-- The same keys, each once, are sorted the same way. -/
theorem sorted_keys_ext {β γ : Type} {entries : List (String × β)} {entries' : List (String × γ)}
    (h : (entries.map Prod.fst).Nodup) (h' : (entries'.map Prod.fst).Nodup)
    (hsame : ∀ u, u ∈ entries.map Prod.fst ↔ u ∈ entries'.map Prod.fst) :
    sortedKeys entries = sortedKeys entries' :=
  SortByKey.sorted_perm ((List.perm_ext_iff_of_nodup h h').mpr hsame)

theorem required_unless_regular (h : ∀ f ∈ approvedFor w filings, f.returnType ≠ .regular) :
    (decideReturns w members filings).requiredReturns = [.regular] := by
  have hany : (approvedFor w filings).any (·.returnType = .regular) = false := by simpa using h
  simp only [decideReturns, hany, Bool.false_eq_true, if_false]

theorem required_with_regular (h : ∃ f ∈ approvedFor w filings, f.returnType = .regular) :
    (decideReturns w members filings).requiredReturns =
      (if Dict.without (byUan members) (filedBy (approvedFor w filings)) ≠ []
        then [.supplementary] else []) ++
      (if changedEntries (byUan members) (filedBy (approvedFor w filings)) ≠ []
        then [.revised] else []) := by
  have hany : (approvedFor w filings).any (·.returnType = .regular) = true := by simpa using h
  simp only [decideReturns, hany, if_true, ne_eq, sorted_keys_nil]

theorem mem_without_filed :
    (u, m) ∈ Dict.without (byUan members) (filedBy approved) ↔
      Dict.get (byUan members) u = some m ∧ ∀ f ∈ approved, f.carries u = none := by
  rw [Dict.without, List.mem_filter, ← Dict.get_some (by_uan_keyed members),
    Option.isNone_iff_eq_none, filed_none]

theorem required_nil_iff : (decideReturns w members filings).requiredReturns = [] ↔
    (∃ f ∈ approvedFor w filings, f.returnType = .regular) ∧
      ∀ u m, Dict.get (byUan members) u = some m →
        ∃ said, Dict.get (filedBy (approvedFor w filings)) u = some said ∧
          m.figures = said.figures := by
  have hlive := by_uan_keyed members
  by_cases hregular : ∃ f ∈ approvedFor w filings, f.returnType = .regular
  · rw [required_with_regular hregular, and_iff_right hregular]
    simp only [List.append_eq_nil_iff, ite_eq_right_iff, List.cons_ne_nil, imp_false, not_not]
    constructor
    · rintro ⟨hnew, hchanged⟩ u m hm
      have hfiled : Dict.get (filedBy (approvedFor w filings)) u ≠ none := by
        intro hnone
        have hentry := mem_without_filed.mpr ⟨hm, filed_none.mp hnone⟩
        simp [hnew] at hentry
      obtain ⟨said, hsaid⟩ := Option.ne_none_iff_exists'.mp hfiled
      refine ⟨said, hsaid, ?_⟩
      by_contra hne
      have hmem := (mem_changed hlive).mpr ⟨m, said, hm, hsaid, hne⟩
      simp [hchanged] at hmem
    · intro h
      constructor
      · refine List.eq_nil_iff_forall_not_mem.mpr fun p hp => ?_
        obtain ⟨hm, hnone⟩ := mem_without_filed.mp hp
        obtain ⟨said, hsaid, -⟩ := h p.1 p.2 hm
        rw [filed_none.mpr hnone] at hsaid
        cases hsaid
      · have hkeys : (changedEntries (byUan members) (filedBy (approvedFor w filings))).map
            Prod.fst = [] := by
          refine List.eq_nil_iff_forall_not_mem.mpr fun u hu => ?_
          obtain ⟨m, said, hm, hsaid, hne⟩ := (mem_changed hlive).mp hu
          obtain ⟨said', hsaid', hsame⟩ := h u m hm
          cases hsaid.symm.trans hsaid'
          exact hne hsame
        simpa using hkeys
  · rw [required_unless_regular (by simpa using hregular)]
    simp [hregular]

/-- Every approved return that names a member gives the figures the run has. -/
def Uncontradicted (w : String) (members : List FiledMember) (filings : List RecordedFiling) :
    Prop :=
  ∀ u m, Dict.get (byUan members) u = some m →
    ∀ f ∈ approvedFor w filings, ∀ said, f.carries u = some said → m.figures = said.figures

/-- Of the approved returns that name a member, all give the figures the run has or none does. -/
def OneVoice (w : String) (members : List FiledMember) (filings : List RecordedFiling) : Prop :=
  ∀ u m, Dict.get (byUan members) u = some m →
    (∀ f ∈ approvedFor w filings, ∀ said, f.carries u = some said → m.figures = said.figures) ∨
      ∀ f ∈ approvedFor w filings, ∀ said, f.carries u = some said → m.figures ≠ said.figures

theorem Uncontradicted.perm (h : Uncontradicted w members filings) (hp : filings.Perm filings') :
    Uncontradicted w members filings' :=
  fun u m hm f hf => h u m hm f ((approved_perm hp w).mem_iff.mpr hf)

/-- Nothing is required in any order of reading just where a Regular is approved, every member is
on an approved return, and no approved return contradicts the run. -/
theorem nothing_in_any_order_iff :
    (∀ order, order.Perm filings → (decideReturns w members order).requiredReturns = []) ↔
      (∃ f ∈ approvedFor w filings, f.returnType = .regular) ∧
        (∀ u m, Dict.get (byUan members) u = some m →
          ∃ f ∈ approvedFor w filings, f.carries u ≠ none) ∧
        Uncontradicted w members filings := by
  constructor
  · intro h
    obtain ⟨hregular, hall⟩ := required_nil_iff.mp (h filings (.refl _))
    refine ⟨hregular, fun u m hm => ?_, fun u m hm f hf said hsaid => ?_⟩
    · obtain ⟨said, hsaid, -⟩ := hall u m hm
      obtain ⟨f, hf, hcarries⟩ := filed_from hsaid
      exact ⟨f, hf, by simp [hcarries]⟩
    · obtain ⟨order, rest, hperm, hlast⟩ := read_last hf
      obtain ⟨said', hsaid', hsame⟩ := (required_nil_iff.mp (h order hperm)).2 u m hm
      rw [hlast, filed_last hsaid] at hsaid'
      cases hsaid'
      exact hsame
  · rintro ⟨⟨r, hr, hregular⟩, hnamed, hagree⟩ order hperm
    have hmem : ∀ f, f ∈ approvedFor w order ↔ f ∈ approvedFor w filings :=
      fun f => (approved_perm hperm w).mem_iff
    refine required_nil_iff.mpr ⟨⟨r, (hmem r).mpr hr, hregular⟩, fun u m hm => ?_⟩
    obtain ⟨f, hf, hcarries⟩ := hnamed u m hm
    have hfiled : Dict.get (filedBy (approvedFor w order)) u ≠ none := fun hnone =>
      hcarries (filed_none.mp hnone f ((hmem f).mpr hf))
    obtain ⟨said, hsaid⟩ := Option.ne_none_iff_exists'.mp hfiled
    obtain ⟨g, hg, hgcarries⟩ := filed_from hsaid
    exact ⟨said, hsaid, hagree u m hm g ((hmem g).mp hg) said hgcarries⟩

/-- Filings in another order name the same members. -/
theorem filed_none_perm (h : (approvedFor w filings).Perm (approvedFor w filings')) :
    Dict.get (filedBy (approvedFor w filings)) u = none ↔
      Dict.get (filedBy (approvedFor w filings')) u = none := by
  simp only [filed_none, h.mem_iff]

theorem without_perm (h : (approvedFor w filings).Perm (approvedFor w filings')) :
    Dict.without (byUan members) (filedBy (approvedFor w filings)) =
      Dict.without (byUan members) (filedBy (approvedFor w filings')) := by
  refine List.filter_congr fun p _ => ?_
  rw [Bool.eq_iff_iff, Option.isNone_iff_eq_none, Option.isNone_iff_eq_none]
  exact filed_none_perm h

theorem withdrawn_perm (h : (approvedFor w filings).Perm (approvedFor w filings')) :
    sortedKeys (Dict.without (filedBy (approvedFor w filings)) (byUan members)) =
      sortedKeys (Dict.without (filedBy (approvedFor w filings')) (byUan members)) := by
  have hkeys : ∀ filed : List (String × FiledMember), ∀ u,
      u ∈ (Dict.without filed (byUan members)).map Prod.fst ↔
        Dict.get filed u ≠ none ∧ Dict.get (byUan members) u = none := by
    intro filed u
    rw [ne_eq, Dict.get_none, not_not, Dict.without]
    simp only [List.mem_map, List.mem_filter, Option.isNone_iff_eq_none]
    constructor
    · rintro ⟨p, ⟨hp, hnone⟩, rfl⟩
      exact ⟨⟨p, hp, rfl⟩, hnone⟩
    · rintro ⟨⟨p, hp, rfl⟩, hnone⟩
      exact ⟨p, ⟨hp, hnone⟩, rfl⟩
  have hnodup : ∀ approved, ((Dict.without (filedBy approved) (byUan members)).map
      Prod.fst).Nodup := fun approved =>
    (List.filter_sublist.map Prod.fst).nodup (by_uan_keyed _)
  refine sorted_keys_ext (hnodup _) (hnodup _) fun u => ?_
  rw [hkeys, hkeys, ne_eq, ne_eq, filed_none_perm h]

/-- Where the approved returns speak with one voice, a changed member is one in any order. -/
theorem OneVoice.changed_perm (hvoice : OneVoice w members filings)
    (h : (approvedFor w filings).Perm (approvedFor w filings'))
    (hu : u ∈ (changedEntries (byUan members) (filedBy (approvedFor w filings'))).map Prod.fst) :
    u ∈ (changedEntries (byUan members) (filedBy (approvedFor w filings))).map Prod.fst := by
  have hlive := by_uan_keyed members
  rw [mem_changed hlive] at hu ⊢
  obtain ⟨m, said, hm, hsaid, hne⟩ := hu
  have hfiled : Dict.get (filedBy (approvedFor w filings)) u ≠ none := by
    rw [ne_eq, filed_none_perm h, hsaid]
    nofun
  obtain ⟨said', hsaid'⟩ := Option.ne_none_iff_exists'.mp hfiled
  obtain ⟨f, hf, hfcarries⟩ := filed_from hsaid
  obtain ⟨g, hg, hgcarries⟩ := filed_from hsaid'
  refine ⟨m, said', hm, hsaid', ?_⟩
  rcases hvoice u m hm with hall | hno
  · exact absurd (hall f (h.mem_iff.mpr hf) said hfcarries) hne
  · exact hno g hg said' hgcarries

theorem OneVoice.perm (hvoice : OneVoice w members filings)
    (h : (approvedFor w filings).Perm (approvedFor w filings')) :
    OneVoice w members filings' := fun u m hm =>
  (hvoice u m hm).imp (fun hall f hf => hall f (h.mem_iff.mpr hf))
    fun hno f hf => hno f (h.mem_iff.mpr hf)

theorem decide_unless_regular (h : ∀ f ∈ approvedFor w filings, f.returnType ≠ .regular)
    (h' : ∀ f ∈ approvedFor w filings', f.returnType ≠ .regular) :
    decideReturns w members filings = decideReturns w members filings' := by
  have hany : ∀ filings, (∀ f ∈ approvedFor w filings, f.returnType ≠ .regular) →
      (approvedFor w filings).any (·.returnType = .regular) = false := by
    simp
  simp only [decideReturns, hany _ h, hany _ h', Bool.false_eq_true, if_false]

/-- The decision is the same in every order of reading just where no Regular is approved, or the
approved returns speak with one voice on every member of the run. -/
theorem decide_in_any_order_iff :
    (∀ order, order.Perm filings →
      decideReturns w members order = decideReturns w members filings) ↔
        (∀ f ∈ approvedFor w filings, f.returnType ≠ .regular) ∨ OneVoice w members filings := by
  have hlive := by_uan_keyed members
  constructor
  · intro h
    by_contra hneither
    rw [not_or] at hneither
    obtain ⟨hregular, hvoice⟩ := hneither
    push Not at hregular
    obtain ⟨r, hr, hregular⟩ := hregular
    refine hvoice fun u m hm => ?_
    by_contra hboth
    rw [not_or] at hboth
    push Not at hboth
    obtain ⟨⟨f, hf, other, hother, hne⟩, g, hg, same, hsame, heq⟩ := hboth
    -- Read last, one of the two returns calls the member changed and the other does not.
    have hchanged : ∀ order, order.Perm filings →
        (decideReturns w members order).changedMembers =
          sortedKeys (changedEntries (byUan members) (filedBy (approvedFor w order))) := by
      intro order hperm
      have hany : (approvedFor w order).any (·.returnType = .regular) = true := by
        simpa using ⟨r, (approved_perm hperm w).mem_iff.mpr hr, hregular⟩
      simp only [decideReturns, hany, if_true]
    obtain ⟨order, rest, hperm, hlast⟩ := read_last hf
    obtain ⟨order', rest', hperm', hlast'⟩ := read_last hg
    have hdecided := congrArg ReturnDecision.changedMembers
      ((h order hperm).trans (h order' hperm').symm)
    rw [hchanged order hperm, hchanged order' hperm'] at hdecided
    have hin : u ∈ sortedKeys (changedEntries (byUan members) (filedBy (approvedFor w order))) := by
      rw [mem_sorted_keys, mem_changed hlive, hlast]
      exact ⟨m, other, hm, filed_last hother, hne⟩
    rw [hdecided, mem_sorted_keys, mem_changed hlive, hlast'] at hin
    obtain ⟨m', said, hm', hsaid, hdiffer⟩ := hin
    rw [filed_last hsame] at hsaid
    cases hsaid
    cases hm.symm.trans hm'
    exact hdiffer heq
  · rintro hcase order hperm
    have happroved := approved_perm hperm w
    rcases hcase with hnone | hvoice
    · exact decide_unless_regular (fun f hf => hnone f (happroved.mem_iff.mp hf)) hnone
    · have hchanged : sortedKeys (changedEntries (byUan members)
          (filedBy (approvedFor w order))) =
          sortedKeys (changedEntries (byUan members) (filedBy (approvedFor w filings))) := by
        refine sorted_keys_ext (changed_nodup hlive _) (changed_nodup hlive _) fun u => ⟨?_, ?_⟩
        · exact hvoice.changed_perm happroved.symm
        · exact (hvoice.perm happroved.symm).changed_perm happroved
      simp only [decideReturns, happroved.any_eq, without_perm happroved,
        withdrawn_perm happroved, hchanged]

/-- Where a month sits does not depend on the order the filings are read in. -/
theorem sequence_for_perm (isDigit : Char → Bool) (finalisedMonths : List String)
    (h : filings.Perm filings') :
    sequenceFor isDigit w finalisedMonths filings =
      sequenceFor isDigit w finalisedMonths filings' := by
  have hmonths : ∀ m, m ∈ approvedRegularMonths isDigit filings ↔
      m ∈ approvedRegularMonths isDigit filings' :=
    fun m => ((h.filter _).map _).mem_iff
  simp only [sequenceFor, outstandingMonths, hmonths]

end

end Caflow.Payroll.EcrSequence
