import Caflow.Payroll.EcrSequence

set_option linter.all false

namespace Caflow.Payroll.EcrSequence

def ReturnType.ofText (text : String) : Option ReturnType :=
  if text = "regular" then some .regular
  else if text = "supplementary" then some .supplementary
  else if text = "revised" then some .revised
  else none

def ReturnType.text : ReturnType → String
  | .regular => "regular"
  | .supplementary => "supplementary"
  | .revised => "revised"

@[simp] theorem ReturnType.of_text (t : ReturnType) : ofText t.text = some t := by
  cases t <;> simp [ofText, text]

def FilingStatus.ofText (text : String) : Option FilingStatus :=
  if text = "submitted" then some .submitted
  else if text = "approved" then some .approved
  else none

/-- A row of epfo_ecr_filings. -/
structure Filing where
  firmId : String
  clientId : String
  wageMonth : String
  returnType : ReturnType
  status : FilingStatus
  submittedOn : String
  approvedOn : Option String
  members : List FiledMember
  deleted : Bool
  deriving DecidableEq

/-- A filing that cannot be recorded as given. -/
inductive ECRFilingError where
  | notAWageMonth (wageMonth : String)
  | notAReturnType (returnType : String)
  | notAFilingState (status : String)
  | approvedBeforeSubmitted

/-- The frozen figures of a row, less the members with nothing left of their UAN. -/
def membersFromRow (raw : List FiledMember) : List FiledMember :=
  raw.filterMap fun m =>
    if Text.strip m.uan = "" then none else some { m with uan := Text.strip m.uan }

/-- The three comparable figures off a built file. -/
def membersFromEcr (ecr : Ecr.ECRFile) : List FiledMember :=
  ecr.members.map fun m => ⟨m.uan, m.epfWages, m.epfContribution, m.epsContribution⟩

def Filing.recorded (row : Filing) : RecordedFiling :=
  ⟨row.wageMonth, row.returnType, row.status, membersFromRow row.members⟩

/-- Every live filing of a client. No order is asked for, so the rows may come in any. -/
def readFilings (firmId clientId : String) (rows : List Filing) : List RecordedFiling :=
  (rows.filter fun row => row.firmId = firmId && row.clientId = clientId && !row.deleted).map
    Filing.recorded

/-- What is passed to record a filing. -/
structure FilingIn where
  firmId : String
  clientId : String
  wageMonth : String
  returnType : String
  status : String
  submittedOn : Option String
  approvedOn : Option String
  members : List FiledMember

/-- The row of a filing, and the day it was submitted where none is given. -/
def FilingIn.row (body : FilingIn) (returnType : ReturnType) (status : FilingStatus)
    (today : String) : Filing :=
  let submitted := (body.submittedOn.filter (· ≠ "")).getD today
  let approvedOn := (body.approvedOn.filter (· ≠ "")).or
    (if status = .approved then some submitted else none)
  ⟨body.firmId, body.clientId, body.wageMonth, returnType, status, submitted, approvedOn,
    body.members, false⟩

/-- A Regular that is recorded again is the same return, so its row is written over. -/
def Filing.rewritten (row existing : Filing) : Filing :=
  { row with approvedOn := row.approvedOn.or existing.approvedOn }

/-- The live Regular of a client's month. -/
def Filing.holdsRegular (row existing : Filing) : Bool :=
  existing.clientId = row.clientId && existing.wageMonth = row.wageMonth &&
    existing.returnType = .regular && !existing.deleted

def writeFiling (row : Filing) (rows : List Filing) : List Filing :=
  if row.returnType = .regular && rows.any row.holdsRegular then
    rows.replaceF fun existing =>
      if row.holdsRegular existing then some (row.rewritten existing) else none
  else rows ++ [row]

/-- Writes down a return that was filed at the portal. -/
def recordFiling (isDigit : Char → Bool) (today : String) (body : FilingIn)
    (rows : List Filing) : Except ECRFilingError (List Filing) :=
  if !isMonth isDigit body.wageMonth then .error (.notAWageMonth body.wageMonth)
  else
    match ReturnType.ofText body.returnType, FilingStatus.ofText body.status with
    | none, _ => .error (.notAReturnType body.returnType)
    | some _, none => .error (.notAFilingState body.status)
    | some returnType, some status =>
      let row := body.row returnType status today
      if row.approvedOn.any (· < row.submittedOn) then .error .approvedBeforeSubmitted
      else .ok (writeFiling row rows)

/-- Each return that is required is recorded as approved, with the members of the run. -/
inductive RecordedEach (isDigit : Char → Bool) (firmId clientId wageMonth : String)
    (members : List FiledMember) : List ReturnType → List Filing → List Filing → Prop
  | none {rows : List Filing} : RecordedEach isDigit firmId clientId wageMonth members [] rows rows
  | next {t : ReturnType} {ts : List ReturnType} {rows rows₁ rows₂ : List Filing}
      (today : String) (submittedOn approvedOn : Option String)
      (h : recordFiling isDigit today ⟨firmId, clientId, wageMonth, t.text, "approved", submittedOn,
        approvedOn, members⟩ rows = .ok rows₁)
      (rest : RecordedEach isDigit firmId clientId wageMonth members ts rows₁ rows₂) :
      RecordedEach isDigit firmId clientId wageMonth members (t :: ts) rows rows₂

/-- The members of a run, each under a UAN that is read back as it was written. -/
structure RunMembers where
  members : List FiledMember
  readable : ∀ m ∈ members, m.uan ≠ "" ∧ Text.strip m.uan = m.uan

/-- The members of a built file are read back as they were written. -/
theorem ecr_readable (alphabet : Ecr.Alphabet) (inputs : Ecr.Inputs) (slips : List Ecr.Slip) :
    ∀ m ∈ membersFromEcr (Ecr.buildEcr alphabet inputs slips),
      m.uan ≠ "" ∧ Text.strip m.uan = m.uan := by
  intro m hm
  obtain ⟨line, hline, rfl⟩ := List.mem_map.mp hm
  obtain ⟨slip, -, hof⟩ := Ecr.member_slip hline
  obtain ⟨rfl, hshape⟩ := Ecr.member_of_slip hof
  refine ⟨fun hnil => ?_, Text.strip_strip _⟩
  have huan : inputs.uan slip = "" := hnil
  simp [huan, Ecr.uanShape] at hshape

def RunMembers.ofEcr (alphabet : Ecr.Alphabet) (inputs : Ecr.Inputs) (slips : List Ecr.Slip) :
    RunMembers :=
  ⟨membersFromEcr (Ecr.buildEcr alphabet inputs slips), ecr_readable alphabet inputs slips⟩

/-- The filings that count towards a month. -/
def approvedRows (firmId clientId wageMonth : String) (rows : List Filing) :
    List RecordedFiling :=
  approvedFor wageMonth (readFilings firmId clientId rows)

section
variable {isDigit : Char → Bool} {firmId clientId w today : String} {rows rows' : List Filing}
  {row : Filing} {f : RecordedFiling} {t : ReturnType}

theorem mem_approved_rows : f ∈ approvedRows firmId clientId w rows ↔
    ∃ row ∈ rows, (row.firmId = firmId ∧ row.clientId = clientId ∧ row.deleted = false) ∧
      (row.wageMonth = w ∧ row.status = .approved) ∧ row.recorded = f := by
  simp only [approvedRows, mem_approved, readFilings, List.mem_map, List.mem_filter,
    Bool.and_eq_true, decide_eq_true_eq, Bool.not_eq_eq_eq_not, Bool.not_true]
  constructor
  · rintro ⟨⟨row, ⟨hrow, ⟨hfirm, hclient⟩, hlive⟩, rfl⟩, hmonth, happroved⟩
    exact ⟨row, hrow, ⟨hfirm, hclient, hlive⟩, ⟨hmonth, of_decide_eq_true happroved⟩, rfl⟩
  · rintro ⟨row, hrow, ⟨hfirm, hclient, hlive⟩, ⟨hmonth, happroved⟩, rfl⟩
    exact ⟨⟨row, ⟨hrow, ⟨hfirm, hclient⟩, hlive⟩, rfl⟩, hmonth, decide_eq_true happroved⟩

/-- A row joins the table, or the Regular it is the same return as is written over. -/
theorem write_filing_cases (row : Filing) (rows : List Filing) :
    writeFiling row rows = rows ++ [row] ∨
      row.returnType = .regular ∧ ∃ before existing after, row.holdsRegular existing ∧
        rows = before ++ existing :: after ∧
          writeFiling row rows = before ++ row.rewritten existing :: after := by
  unfold writeFiling
  split
  · rename_i h
    obtain ⟨htype, hany⟩ := Bool.and_eq_true_iff.mp h
    obtain ⟨found, hfound, hholds⟩ := List.any_eq_true.mp hany
    refine .inr ⟨of_decide_eq_true htype, ?_⟩
    obtain ⟨existing, replaced, before, after, -, hp, hrows, hrows'⟩ :=
      List.exists_of_replaceF hfound (p := fun existing =>
        if row.holdsRegular existing then some (row.rewritten existing) else none) (if_pos hholds)
    obtain ⟨hexisting, rfl⟩ : row.holdsRegular existing ∧ row.rewritten existing = replaced := by
      simpa using hp
    exact ⟨before, existing, after, hexisting, hrows, hrows'⟩
  · exact .inl rfl

/-- A return recorded as approved counts with all that counted before, as no approved Regular is
written over. -/
theorem write_counts (hrow : row.firmId = firmId ∧ row.clientId = clientId ∧ row.deleted = false)
    (happroved : row.wageMonth = w ∧ row.status = .approved)
    (hfree : row.returnType = .regular →
      ∀ f ∈ approvedRows firmId clientId w rows, f.returnType ≠ .regular) :
    f ∈ approvedRows firmId clientId w (writeFiling row rows) ↔
      f = row.recorded ∨ f ∈ approvedRows firmId clientId w rows := by
  rcases write_filing_cases row rows with hwrite | ⟨htype, before, existing, after, hholds, rfl,
    hwrite⟩
  · rw [hwrite, mem_approved_rows, mem_approved_rows]
    simp only [List.mem_append, List.mem_singleton]
    constructor
    · rintro ⟨other, hother | rfl, hlive, hcounts, rfl⟩
      · exact .inr ⟨other, hother, hlive, hcounts, rfl⟩
      · exact .inl rfl
    · rintro (rfl | ⟨other, hother, hlive, hcounts, rfl⟩)
      · exact ⟨row, .inr rfl, hrow, happroved, rfl⟩
      · exact ⟨other, .inl hother, hlive, hcounts, rfl⟩
  · have hregular : existing.returnType = .regular := by
      simp only [Filing.holdsRegular, Bool.and_eq_true, decide_eq_true_eq] at hholds
      exact hholds.1.2
    rw [hwrite, mem_approved_rows, mem_approved_rows]
    simp only [List.mem_append, List.mem_cons]
    constructor
    · rintro ⟨other, hother | rfl | hother, hlive, hcounts, rfl⟩
      · exact .inr ⟨other, .inl hother, hlive, hcounts, rfl⟩
      · exact .inl rfl
      · exact .inr ⟨other, .inr (.inr hother), hlive, hcounts, rfl⟩
    · rintro (rfl | ⟨other, hother, hlive, hcounts, rfl⟩)
      · exact ⟨row.rewritten existing, .inr (.inl rfl), hrow, happroved, rfl⟩
      · rcases hother with hother | rfl | hother
        · exact ⟨other, .inl hother, hlive, hcounts, rfl⟩
        · refine absurd hregular (hfree htype other.recorded (mem_approved_rows.mpr ?_))
          exact ⟨other, List.mem_append_right before List.mem_cons_self, hlive, hcounts, rfl⟩
        · exact ⟨other, .inr (.inr hother), hlive, hcounts, rfl⟩

/-- The return a run's members are recorded on. -/
def RunMembers.filing (run : RunMembers) (w : String) (t : ReturnType) : RecordedFiling :=
  ⟨w, t, .approved, run.members⟩

variable {run : RunMembers}

theorem RunMembers.read_back (run : RunMembers) : membersFromRow run.members = run.members := by
  obtain ⟨members, h⟩ := run
  induction members with
  | nil => rfl
  | cons m members ih =>
    obtain ⟨⟨hne, hstrip⟩, hrest⟩ := List.forall_mem_cons.mp h
    have htail := ih hrest
    simp only [membersFromRow, List.filterMap_cons, hstrip, if_neg hne] at htail ⊢
    rw [htail]

theorem record_counts {submittedOn approvedOn : Option String}
    (h : recordFiling isDigit today ⟨firmId, clientId, w, t.text, "approved", submittedOn,
      approvedOn, run.members⟩ rows = .ok rows')
    (hfree : t = .regular →
      ∀ f ∈ approvedRows firmId clientId w rows, f.returnType ≠ .regular) :
    f ∈ approvedRows firmId clientId w rows' ↔
      f = run.filing w t ∨ f ∈ approvedRows firmId clientId w rows := by
  have hstatus : FilingStatus.ofText "approved" = some .approved := by simp [FilingStatus.ofText]
  simp only [recordFiling, ReturnType.of_text, hstatus] at h
  split at h
  · cases h
  · split at h
    · cases h
    · cases h
      rw [write_counts (by exact ⟨rfl, rfl, rfl⟩) (by exact ⟨rfl, rfl⟩) hfree]
      simp only [Filing.recorded, FilingIn.row, run.read_back, RunMembers.filing]

/-- A month needs its Regular alone, or none of the returns it needs is one. -/
theorem required_regular {members : List FiledMember} {filings : List RecordedFiling}
    (h : ReturnType.regular ∈ (decideReturns w members filings).requiredReturns) :
    (decideReturns w members filings).requiredReturns = [.regular] ∧
      ∀ f ∈ approvedFor w filings, f.returnType ≠ .regular := by
  by_cases hregular : ∃ f ∈ approvedFor w filings, f.returnType = .regular
  · rw [required_with_regular hregular, List.mem_append] at h
    rcases h with h | h <;> split at h <;> simp at h
  · have hnone : ∀ f ∈ approvedFor w filings, f.returnType ≠ .regular := by simpa using hregular
    exact ⟨required_unless_regular hnone, hnone⟩

theorem recorded_each_counts {ts : List ReturnType}
    (h : RecordedEach isDigit firmId clientId w run.members ts rows rows')
    (hfree : ReturnType.regular ∈ ts → ts = [.regular] ∧
      ∀ f ∈ approvedRows firmId clientId w rows, f.returnType ≠ .regular) :
    f ∈ approvedRows firmId clientId w rows' ↔
      (∃ t ∈ ts, f = run.filing w t) ∨ f ∈ approvedRows firmId clientId w rows := by
  induction h with
  | none => simp
  | @next t ts rows rows₁ rows₂ today submittedOn approvedOn h rest ih =>
    have hfirst : t = .regular → ts = [] ∧
        ∀ f ∈ approvedRows firmId clientId w rows, f.returnType ≠ .regular := by
      rintro rfl
      obtain ⟨hone, hnone⟩ := hfree List.mem_cons_self
      exact ⟨(List.cons.inj hone).2, hnone⟩
    have hrest : ReturnType.regular ∈ ts → ts = [.regular] ∧
        ∀ f ∈ approvedRows firmId clientId w rows₁, f.returnType ≠ .regular := by
      intro hmem
      obtain ⟨hone, -⟩ := hfree (List.mem_cons_of_mem _ hmem)
      rw [(List.cons.inj hone).2] at hmem
      cases hmem
    rw [ih hrest, record_counts h fun ht => (hfirst ht).2]
    simp only [List.mem_cons, exists_eq_or_imp]
    rw [or_left_comm, or_assoc]

theorem recorded_each_counts_decided {order : List RecordedFiling}
    (hperm : order.Perm (readFilings firmId clientId rows))
    (h : RecordedEach isDigit firmId clientId w run.members
      (decideReturns w run.members order).requiredReturns rows rows') :
    f ∈ approvedRows firmId clientId w rows' ↔
      (∃ t ∈ (decideReturns w run.members order).requiredReturns, f = run.filing w t) ∨
        f ∈ approvedRows firmId clientId w rows := by
  refine recorded_each_counts h fun hregular => ?_
  obtain ⟨hone, hnone⟩ := required_regular hregular
  exact ⟨hone, fun g hg => hnone g ((approved_perm hperm w).mem_iff.mpr hg)⟩

/-- The returns a change requires, decided from the filings in whatever order they are read, are
recorded. -/
def Settles (isDigit : Char → Bool) (firmId clientId w : String) (rows : List Filing)
    (run : RunMembers) (rows' : List Filing) : Prop :=
  ∃ order, order.Perm (readFilings firmId clientId rows) ∧
    RecordedEach isDigit firmId clientId w run.members
      (decideReturns w run.members order).requiredReturns rows rows'

/-- With the returns recorded the month has its Regular, and every member of the run is on a
return. -/
theorem Settles.covers (h : Settles isDigit firmId clientId w rows run rows') :
    (∃ f ∈ approvedRows firmId clientId w rows', f.returnType = .regular) ∧
      ∀ u m, Dict.get (byUan run.members) u = some m →
        ∃ f ∈ approvedRows firmId clientId w rows', f.carries u ≠ none := by
  obtain ⟨order, hperm, hrecorded⟩ := h
  have hcounts := fun f : RecordedFiling =>
    recorded_each_counts_decided (f := f) hperm hrecorded
  have hown : ∀ t ∈ (decideReturns w run.members order).requiredReturns,
      run.filing w t ∈ approvedRows firmId clientId w rows' :=
    fun t ht => (hcounts _).mpr (.inl ⟨t, ht, rfl⟩)
  have hcarries : ∀ t u m, Dict.get (byUan run.members) u = some m →
      (run.filing w t).carries u ≠ none := by
    intro t u m hm
    rw [RecordedFiling.carries, RunMembers.filing, hm]
    exact Option.some_ne_none _
  by_cases hregular : ∃ f ∈ approvedFor w order, f.returnType = .regular
  · constructor
    · obtain ⟨f, hf, htype⟩ := hregular
      exact ⟨f, (hcounts f).mpr (.inr ((approved_perm hperm w).mem_iff.mp hf)), htype⟩
    · intro u m hm
      by_cases hnamed : ∃ f ∈ approvedFor w order, f.carries u ≠ none
      · obtain ⟨f, hf, hsaid⟩ := hnamed
        exact ⟨f, (hcounts f).mpr (.inr ((approved_perm hperm w).mem_iff.mp hf)), hsaid⟩
      · -- A member on no approved return is new, so a Supplementary has been recorded.
        have hnew := mem_without_filed.mpr ⟨hm, by simpa using hnamed⟩
        refine ⟨_, hown .supplementary ?_, hcarries _ u m hm⟩
        rw [required_with_regular hregular, if_pos (List.ne_nil_of_mem hnew)]
        exact List.mem_cons_self
  · have hrequired : (decideReturns w run.members order).requiredReturns = [.regular] :=
      required_unless_regular (by simpa using hregular)
    have hmem := hown .regular (by rw [hrequired]; exact List.mem_cons_self)
    exact ⟨⟨_, hmem, rfl⟩, fun u m hm => ⟨_, hmem, hcarries _ u m hm⟩⟩

/-- What is recorded agrees with the run, so a return contradicts it after just where one did
before. -/
theorem Settles.uncontradicted_iff (h : Settles isDigit firmId clientId w rows run rows') :
    Uncontradicted w run.members (readFilings firmId clientId rows') ↔
      Uncontradicted w run.members (readFilings firmId clientId rows) := by
  obtain ⟨order, hperm, hrecorded⟩ := h
  have hcounts := fun f : RecordedFiling =>
    recorded_each_counts_decided (f := f) hperm hrecorded
  constructor
  · exact fun hafter u m hm f hf => hafter u m hm f ((hcounts f).mpr (.inr hf))
  · intro hbefore u m hm f hf said hsaid
    rcases (hcounts f).mp hf with ⟨t, -, rfl⟩ | hf
    · cases hm.symm.trans hsaid
      rfl
    · exact hbefore u m hm f hf said hsaid

/-- After a change nothing is required in any order of reading just where no return that was
approved before it contradicts the run. -/
theorem Settles.nothing_iff (h : Settles isDigit firmId clientId w rows run rows') :
    (∀ order, order.Perm (readFilings firmId clientId rows') →
      (decideReturns w run.members order).requiredReturns = []) ↔
        Uncontradicted w run.members (readFilings firmId clientId rows) := by
  obtain ⟨hregular, hnamed⟩ := h.covers
  rw [nothing_in_any_order_iff, ← h.uncontradicted_iff]
  exact ⟨fun hall => hall.2.2, fun hagree => ⟨hregular, hnamed, hagree⟩⟩

/-- A change of the run, with the filings before it and after its returns are recorded. -/
structure Change where
  before : List Filing
  run : RunMembers
  after : List Filing

/-- The changes of a run, one after the other, each with its returns recorded. -/
inductive History (isDigit : Char → Bool) (firmId clientId w : String) (start : List Filing) :
    List Change → List Filing → Prop
  | start : History isDigit firmId clientId w start [] start
  | change {changes : List Change} {rows rows' : List Filing} {run : RunMembers}
      (h : History isDigit firmId clientId w start changes rows)
      (hs : Settles isDigit firmId clientId w rows run rows') :
      History isDigit firmId clientId w start (changes ++ [⟨rows, run, rows'⟩]) rows'

theorem History.settles {start : List Filing} {changes : List Change}
    (h : History isDigit firmId clientId w start changes rows) :
    ∀ c ∈ changes, Settles isDigit firmId clientId w c.before c.run c.after := by
  induction h with
  | start => simp
  | change h hs ih =>
    intro c hc
    rcases List.mem_append.mp hc with hc | hc
    · exact ih c hc
    · obtain rfl := List.mem_singleton.mp hc
      exact hs

end

/-- Every run of changes settles, whatever order its filings are read in, after just those changes
that no return approved before them contradicts; and over any filings the decision is the same in
every order just where the approved returns speak with one voice. -/
theorem returns_settle (isDigit : Char → Bool) (firmId clientId w : String) :
    (∀ start changes rows, History isDigit firmId clientId w start changes rows →
      ∀ c ∈ changes, (∀ order, order.Perm (readFilings firmId clientId c.after) →
        (decideReturns w c.run.members order).requiredReturns = []) ↔
          Uncontradicted w c.run.members (readFilings firmId clientId c.before)) ∧
    (∀ members filings, (∀ order, order.Perm filings →
      decideReturns w members order = decideReturns w members filings) ↔
        (∀ f ∈ approvedFor w filings, f.returnType ≠ .regular) ∨ OneVoice w members filings) ∧
    ∀ finalisedMonths filings order, order.Perm filings →
      sequenceFor isDigit w finalisedMonths order =
        sequenceFor isDigit w finalisedMonths filings :=
  ⟨fun _ _ _ h c hc => (h.settles c hc).nothing_iff, fun _ _ => decide_in_any_order_iff,
    fun finalisedMonths _ _ h => sequence_for_perm isDigit finalisedMonths h⟩

/-- No return contradicts a run whose members have the figures of every return that names them. -/
theorem uncontradicted_of_members {w : String} {members : List FiledMember}
    {filings : List RecordedFiling}
    (h : ∀ m ∈ members, ∀ f ∈ approvedFor w filings, ∀ said ∈ f.members,
      said.uan = m.uan → m.figures = said.figures) : Uncontradicted w members filings := by
  intro u m hm f hf said hsaid
  obtain ⟨hmem, rfl⟩ := get_by_uan_some hm
  obtain ⟨hnamed, huan⟩ := get_by_uan_some hsaid
  exact h m hmem f hf said hnamed huan

def asha : FiledMember := ⟨"100200300400", 15000, 3050, 1250⟩

def ashaRevised : FiledMember := ⟨"100200300400", 14000, 2846, 1166⟩

def binu : FiledMember := ⟨"100200300401", 12000, 2440, 1000⟩

theorem asha_readable : ∀ m ∈ [asha], m.uan ≠ "" ∧ Text.strip m.uan = m.uan := by
  decide +kernel

theorem revised_readable : ∀ m ∈ [ashaRevised], m.uan ≠ "" ∧ Text.strip m.uan = m.uan := by
  decide +kernel

theorem joined_readable : ∀ m ∈ [asha, binu], m.uan ≠ "" ∧ Text.strip m.uan = m.uan := by
  decide +kernel

/-- The row of a return that was submitted and approved on one day. -/
def approvedRow (returnType : ReturnType) (members : List FiledMember) : Filing :=
  ⟨"firm", "client", "2026-04", returnType, .approved, "2026-05-10", some "2026-05-10", members,
    false⟩

theorem recorded_once (t : ReturnType) (run : RunMembers) (rows : List Filing)
    (hrequired : (decideReturns "2026-04" run.members
      (readFilings "firm" "client" rows)).requiredReturns = [t])
    (hwrite : writeFiling (approvedRow t run.members) rows = rows ++ [approvedRow t run.members]) :
    Settles Char.isDigit "firm" "client" "2026-04" rows run
      (rows ++ [approvedRow t run.members]) := by
  refine ⟨_, .refl _, ?_⟩
  rw [hrequired]
  refine .next "2026-05-10" none none ?_ .none
  have hmonth : isMonth Char.isDigit "2026-04" = true := by decide +kernel
  have hstatus : FilingStatus.ofText "approved" = some .approved := by decide +kernel
  have hrow : (⟨"firm", "client", "2026-04", t.text, "approved", none, none, run.members⟩ :
      FilingIn).row t .approved "2026-05-10" = approvedRow t run.members := rfl
  have hdates : (approvedRow t run.members).approvedOn.any
      (· < (approvedRow t run.members).submittedOn) = false :=
    decide_eq_false (lt_irrefl "2026-05-10")
  simp only [recordFiling, hmonth, ReturnType.of_text, hstatus, hrow, hdates, hwrite,
    Bool.not_true, Bool.false_eq_true, if_false]

theorem asha_filed : Settles Char.isDigit "firm" "client" "2026-04" [] ⟨[asha], asha_readable⟩
    [approvedRow .regular [asha]] :=
  recorded_once .regular ⟨[asha], asha_readable⟩ [] (by decide +kernel) (by decide +kernel)

/-- A joiner's Supplementary leaves nothing to file, whichever return is read last. -/
theorem joiner_settles : ∀ order,
    order.Perm (readFilings "firm" "client"
      [approvedRow .regular [asha], approvedRow .supplementary [asha, binu]]) →
    (decideReturns "2026-04" [asha, binu] order).requiredReturns = [] := by
  have hjoined : Settles Char.isDigit "firm" "client" "2026-04" [approvedRow .regular [asha]]
      ⟨[asha, binu], joined_readable⟩
      [approvedRow .regular [asha], approvedRow .supplementary [asha, binu]] :=
    recorded_once .supplementary ⟨[asha, binu], joined_readable⟩ _ (by decide +kernel)
      (by decide +kernel)
  refine ((returns_settle Char.isDigit "firm" "client" "2026-04").1 [] _ _
    (.change (.change .start asha_filed) hjoined) _ List.mem_concat_self).mpr ?_
  exact uncontradicted_of_members (by decide +kernel)

/-- A Revised return that is read before the Regular it corrects is required again. -/
theorem revised_again : ∃ changes rows,
    History Char.isDigit "firm" "client" "2026-04" [] changes rows ∧
    ∃ c ∈ changes, (∃ order, order.Perm (readFilings "firm" "client" c.after) ∧
      (decideReturns "2026-04" c.run.members order).requiredReturns = [.revised]) ∧
    (decideReturns "2026-04" c.run.members
      (readFilings "firm" "client" c.after)).requiredReturns = [] := by
  have hrevised : Settles Char.isDigit "firm" "client" "2026-04" [approvedRow .regular [asha]]
      ⟨[ashaRevised], revised_readable⟩
      [approvedRow .regular [asha], approvedRow .revised [ashaRevised]] :=
    recorded_once .revised ⟨[ashaRevised], revised_readable⟩ _ (by decide +kernel)
      (by decide +kernel)
  refine ⟨_, _, .change (.change .start asha_filed) hrevised, _, List.mem_concat_self, ⟨?_, ?_⟩⟩
  · exact ⟨_, List.reverse_perm _, by decide +kernel⟩
  · decide +kernel

end Caflow.Payroll.EcrSequence
