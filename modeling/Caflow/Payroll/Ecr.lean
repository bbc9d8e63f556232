import Caflow.Lib.Delimited
import Caflow.Text

set_option linter.all false

namespace Caflow.Payroll.Ecr
open Delimited

def delimiter : List Char := ['#', '~', '#']

/-- What the character tables of the run-time hold: the capitals of a character, and whether a
pattern's digit matches it. -/
structure Alphabet where
  upper : Char → List Char
  isDigit : Char → Bool

/-- The delimiter and its two characters, line ends and tabs become blanks, and white space is
collapsed. -/
def sanitiseName (raw : List Char) : List Char :=
  let undelimited := [' '].intercalate (splitText delimiter raw)
  let cleaned := undelimited.map fun c => if c ∈ ['#', '~', '\r', '\n', '\t'] then ' ' else c
  [' '].intercalate (Text.words cleaned)

/-- One member's line, in whole rupees. -/
structure ECRMember where
  uan : String
  name : String
  grossWages : ℤ
  epfWages : ℤ
  epsWages : ℤ
  edliWages : ℤ
  epfContribution : ℤ
  epsContribution : ℤ
  ncpDays : ℤ
  refundOfAdvances : ℤ
  onActualWages : Bool

def ECRMember.epfEpsDifference (m : ECRMember) : ℤ := m.epfContribution - m.epsContribution

/-- The figures of a line, in the order of the file. -/
def ECRMember.figures (m : ECRMember) : List ℤ :=
  [m.grossWages, m.epfWages, m.epsWages, m.edliWages, m.epfContribution, m.epsContribution,
    m.epfEpsDifference, m.ncpDays, m.refundOfAdvances]

def ECRMember.toLine (m : ECRMember) : List Char :=
  delimiter.intercalate (m.uan.toList :: m.name.toList :: m.figures.map fun n => n.repr.toList)

/-- Why a slip is not on the file, under the member's label. -/
inductive Problem where
  | electionWithoutPf (label : String)
  | electionWithoutWage (label : String)
  | noUan (label : String)
  | uanShape (label uan : String)
  | split (label : String) (eps epf total : ℤ)
  | electedContribution (label : String) (wages declared rateBps expected : ℤ)
  | epsAboveCeiling (label : String)
  | edliAboveCeiling (label : String)
  | epfBelowEps (label : String) (epf eps : ℤ)
  | ncpDays (label : String) (ncp days : ℤ)
  | absentWithContribution (label : String)

structure ECRFile where
  members : List ECRMember
  problems : List Problem

def ECRFile.toText (f : ECRFile) : String :=
  String.ofList (['\n'].intercalate (f.members.map ECRMember.toLine))

/-- A row of payroll_slips. -/
structure Slip where
  employeeId : Option String
  pfEmployeePaise : Option ℤ
  pfEmployerPaise : Option ℤ
  pfEmployerEpsPaise : Option ℤ
  pfEmployerEpfPaise : Option ℤ
  pfOnActualWages : Bool
  pfWagesPaise : Option ℤ
  basicPaise : Option ℤ
  daPaise : Option ℤ
  oneTimePfWagesPaise : Option ℤ
  grossPaise : Option ℤ
  lopDays : Option ℤ

/-- A row of payroll_employees. -/
structure Employee where
  name : Option String
  uan : Option String
  pfApplicable : Bool
  pfElection : Bool

/-- An employee who is not found says nothing. -/
def Employee.unknown : Employee := ⟨none, none, false, false⟩

def rupees (paise : ℤ) : ℤ := paise / 100

def electionRefusal (label : String) (emp : Employee) (slip : Slip) : Option Problem :=
  if emp.pfElection && !emp.pfApplicable then some (.electionWithoutPf label)
  else if slip.pfOnActualWages && slip.pfWagesPaise.isNone then some (.electionWithoutWage label)
  else none

/-- A declared wage that the slip's own contribution does not follow, to the rupee. -/
def electedContributionMismatch (label : String) (member : ECRMember) (employeePfPaise : ℤ)
    (rateBps : Option ℤ) : Option Problem :=
  let rate := rateBps.getD 0
  if !member.onActualWages || rate = 0 then none
  else
    let expected := member.epfWages * rate / 10000
    let declared := rupees employeePfPaise
    if |declared - expected| ≤ 1 then none
    else some (.electedContribution label member.epfWages declared rate expected)

section
variable (alphabet : Alphabet)

/-- Twelve digits; the pattern's end also admits a line end after them. -/
def uanShape (uan : List Char) : Bool :=
  (uan.take 12).length = 12 && (uan.take 12).all alphabet.isDigit &&
    (uan.drop 12 = [] || uan.drop 12 = ['\n'])

/-- A name as the file has it. -/
def cleanedName (name : String) : String :=
  String.ofList ((sanitiseName name.toList).flatMap alphabet.upper)

structure Inputs where
  employeesById : String → Option Employee
  daysInMonth : ℤ
  wageCeilingPaise : ℤ
  employeeRateBps : Option ℤ

def Inputs.employee (inputs : Inputs) (slip : Slip) : Employee :=
  (slip.employeeId.bind inputs.employeesById).getD .unknown

def Inputs.name (inputs : Inputs) (slip : Slip) : String :=
  Text.strip ((inputs.employee slip).name.getD "")

def Inputs.uan (inputs : Inputs) (slip : Slip) : String :=
  Text.strip ((inputs.employee slip).uan.getD "")

def Inputs.label (inputs : Inputs) (slip : Slip) : String :=
  if inputs.name slip ≠ "" then inputs.name slip
  else if slip.employeeId.getD "" ≠ "" then slip.employeeId.getD ""
  else "unknown member"

/-- The line of a slip, with every figure read off it. -/
def declared (inputs : Inputs) (slip : Slip) : ECRMember :=
  let pfWages := slip.pfWagesPaise.getD (slip.basicPaise.getD 0 + slip.daPaise.getD 0) +
    slip.oneTimePfWagesPaise.getD 0
  let wageRupees := rupees pfWages
  let atCeiling := min wageRupees (rupees inputs.wageCeilingPaise)
  { uan := inputs.uan slip
    name := cleanedName alphabet (inputs.name slip)
    grossWages := rupees (slip.grossPaise.getD 0)
    epfWages := if slip.pfOnActualWages then wageRupees else atCeiling
    epsWages := if 0 < slip.pfEmployerEpsPaise.getD 0 then atCeiling else 0
    edliWages := atCeiling
    epfContribution := rupees (slip.pfEmployeePaise.getD 0 + slip.pfEmployerEpfPaise.getD 0)
    epsContribution := rupees (slip.pfEmployerEpsPaise.getD 0)
    ncpDays := slip.lopDays.getD 0
    refundOfAdvances := 0
    onActualWages := slip.pfOnActualWages }

/-- What is wrong with a line as it is declared. -/
def lineRefusal (inputs : Inputs) (label : String) (member : ECRMember) : Option Problem :=
  let ceiling := rupees inputs.wageCeilingPaise
  if ceiling < member.epsWages then some (.epsAboveCeiling label)
  else if ceiling < member.edliWages then some (.edliAboveCeiling label)
  else if member.epfWages < member.epsWages then
    some (.epfBelowEps label member.epfWages member.epsWages)
  else if member.ncpDays < 0 ∨ inputs.daysInMonth < member.ncpDays then
    some (.ncpDays label member.ncpDays inputs.daysInMonth)
  else if member.ncpDays = inputs.daysInMonth ∧
      (member.epfContribution ≠ 0 ∨ member.epsContribution ≠ 0) then
    some (.absentWithContribution label)
  else none

/-- What is wrong with a contributory member's slip. -/
def memberRefusal (inputs : Inputs) (slip : Slip) : Option Problem :=
  let label := inputs.label slip
  let uan := inputs.uan slip
  let employerTotal := slip.pfEmployerPaise.getD 0
  let eps := slip.pfEmployerEpsPaise.getD 0
  let epfEmployer := slip.pfEmployerEpfPaise.getD 0
  if uan = "" then some (.noUan label)
  else if ¬ uanShape alphabet uan.toList then some (.uanShape label uan)
  else if eps + epfEmployer ≠ employerTotal then
    some (.split label (rupees eps) (rupees epfEmployer) (rupees employerTotal))
  else
    match electedContributionMismatch label (declared alphabet inputs slip)
      (slip.pfEmployeePaise.getD 0) inputs.employeeRateBps with
    | some problem => some problem
    | none => lineRefusal inputs label (declared alphabet inputs slip)

/-- Nobody the provident fund was ever taken for. -/
def neverContributory (inputs : Inputs) (slip : Slip) : Bool :=
  !(inputs.employee slip).pfApplicable && slip.pfEmployeePaise.getD 0 = 0 &&
    slip.pfEmployerPaise.getD 0 = 0

/-- What one slip adds to the file: a member, nothing, or the problem that keeps it off. -/
def memberOf (inputs : Inputs) (slip : Slip) : Except Problem (Option ECRMember) :=
  match electionRefusal (inputs.label slip) (inputs.employee slip) slip with
  | some problem => .error problem
  | none =>
    if neverContributory inputs slip then .ok none
    else
      match memberRefusal alphabet inputs slip with
      | some problem => .error problem
      | none => .ok (some (declared alphabet inputs slip))

def buildEcr (inputs : Inputs) (slips : List Slip) : ECRFile where
  members := slips.filterMap fun slip => match memberOf alphabet inputs slip with
    | .ok member => member
    | .error _ => none
  problems := slips.filterMap fun slip => match memberOf alphabet inputs slip with
    | .ok _ => none
    | .error problem => some problem

end

/-- What one line of the file says. -/
structure Reading where
  uan : String
  name : String
  figures : List ℤ
  deriving DecidableEq

/-- Eleven fields between delimiters: the UAN, the name and nine whole numbers. -/
def readLine (line : List Char) : Option Reading :=
  match splitText delimiter line with
  | uan :: name :: figures =>
    if figures.length = 9 then
      (figures.mapM fun f => (String.ofList f).toInt?).map fun numbers =>
        ⟨String.ofList uan, String.ofList name, numbers⟩
    else none
  | _ => none

/-- A character that neither breaks a line nor begins a delimiter. -/
def Plain (c : Char) : Prop := c ≠ '#' ∧ isBreak c = false

instance : DecidablePred Plain := fun c => inferInstanceAs (Decidable (c ≠ '#' ∧ isBreak c = false))

/-- The capitals of a plain character are plain, and so is a digit. -/
structure Alphabet.Lawful (alphabet : Alphabet) : Prop where
  upper : ∀ c, Plain c → ∀ d ∈ alphabet.upper c, Plain d
  digit : ∀ c, alphabet.isDigit c → Plain c

theorem plain_of_not_space (hspace : Text.isSpace c = false) (hne : c ≠ '#') : Plain c := by
  refine ⟨hne, ?_⟩
  simp only [Text.isSpace, isBreak, Bool.or_eq_false_iff, Bool.and_eq_false_iff,
    decide_eq_false_iff_not, beq_eq_false_iff_ne] at hspace ⊢
  omega

theorem mem_intercalate {sep : List Char} {parts : List (List Char)}
    (h : c ∈ sep.intercalate parts) : c ∈ sep ∨ ∃ part ∈ parts, c ∈ part := by
  induction parts with
  | nil => simp [List.intercalate] at h
  | cons part parts ih =>
    cases parts with
    | nil =>
      rw [List.intercalate_singleton] at h
      exact .inr ⟨part, List.mem_cons_self, h⟩
    | cons next parts =>
      have hjoin : sep.intercalate (part :: next :: parts) =
          part ++ (sep ++ sep.intercalate (next :: parts)) := by
        simp [List.intercalate]
      rw [hjoin, List.mem_append, List.mem_append] at h
      rcases h with h | h | h
      · exact .inr ⟨part, List.mem_cons_self, h⟩
      · exact .inl h
      · rcases ih h with h | ⟨other, hmem, hc⟩
        · exact .inl h
        · exact .inr ⟨other, List.mem_cons_of_mem _ hmem, hc⟩

theorem mem_of_words {cs : List Char} (hw : w ∈ Text.words cs) (hc : c ∈ w) :
    c ∈ cs ∧ Text.isSpace c = false := by
  have hsplit := (List.mem_filter.mp hw).1
  refine ⟨?_, Text.split_no_space cs w hsplit c hc⟩
  clear hw
  induction cs generalizing w with
  | nil =>
    obtain rfl : w = [] := by simpa using hsplit
    cases hc
  | cons d cs ih =>
    rw [List.splitOnP_cons_eq_if_modifyHead] at hsplit
    split at hsplit
    · rcases List.mem_cons.mp hsplit with rfl | hsplit
      · cases hc
      · exact List.mem_cons_of_mem _ (ih hc hsplit)
    · obtain ⟨first, rest, he⟩ := List.exists_cons_of_ne_nil (List.splitOnP_ne_nil Text.isSpace cs)
      rw [he] at hsplit ih
      rcases List.mem_cons.mp hsplit with rfl | hsplit
      · rcases List.mem_cons.mp hc with rfl | hc
        · exact List.mem_cons_self
        · exact List.mem_cons_of_mem _ (ih hc List.mem_cons_self)
      · exact List.mem_cons_of_mem _ (ih hc (List.mem_cons_of_mem _ hsplit))

/-- Whatever a name holds, it is plain when it is cleaned. -/
theorem sanitised_plain (raw : List Char) : ∀ c ∈ sanitiseName raw, Plain c := by
  intro c hc
  rcases mem_intercalate hc with hblank | ⟨w, hw, hcw⟩
  · obtain rfl := List.mem_singleton.mp hblank
    exact ⟨by decide, by decide⟩
  · obtain ⟨hmem, hspace⟩ := mem_of_words hw hcw
    refine plain_of_not_space hspace ?_
    rintro rfl
    obtain ⟨d, -, hd⟩ := List.mem_map.mp hmem
    split at hd
    · cases hd
    · rename_i hout
      subst hd
      exact hout List.mem_cons_self

section
variable {alphabet : Alphabet}

theorem cleaned_plain (h : alphabet.Lawful) (name : String) :
    ∀ c ∈ (cleanedName alphabet name).toList, Plain c := by
  intro c hc
  unfold cleanedName at hc
  rw [String.toList_ofList] at hc
  obtain ⟨d, hd, hcd⟩ := List.mem_flatMap.mp hc
  exact h.upper d (sanitised_plain _ d hd) c hcd

theorem strip_last (s : String) (h : (Text.strip s).toList = front ++ [c]) :
    Text.isSpace c = false := by
  rw [Text.strip_eq, String.toList_ofList] at h
  have hne : (s.toList.dropWhile Text.isSpace).rdropWhile Text.isSpace ≠ [] := by simp [h]
  have hlast := List.rdropWhile_last_not Text.isSpace _ hne
  simpa [h] using hlast

/-- A trimmed text of the UAN's shape holds digits only. -/
theorem uan_plain (h : alphabet.Lawful) (s : String)
    (hshape : uanShape alphabet (Text.strip s).toList) : ∀ c ∈ (Text.strip s).toList, Plain c := by
  set uan := (Text.strip s).toList with huan
  simp only [uanShape, Bool.and_eq_true, Bool.or_eq_true, decide_eq_true_eq, List.all_eq_true]
    at hshape
  obtain ⟨⟨-, hdigits⟩, hend⟩ := hshape
  have hsplit : uan = uan.take 12 ++ uan.drop 12 := (List.take_append_drop 12 uan).symm
  rcases hend with hend | hend
  · rw [hsplit, hend, List.append_nil]
    exact fun c hc => h.digit c (hdigits c hc)
  · rw [hend] at hsplit
    have := strip_last s (huan ▸ hsplit)
    exact absurd this (by decide)

end

/-- A character from a stretch of the table that is plain. -/
theorem plain_of_range {low : ℕ} {size : ℕ} (htable : ∀ n : Fin size, Plain (Char.ofNat (low + n)))
    {c : Char} (hlow : low ≤ c.toNat) (hhigh : c.toNat < low + size) : Plain c := by
  have := htable ⟨c.toNat - low, by omega⟩
  rwa [Nat.add_sub_cancel' hlow, Char.ofNat_toNat] at this

theorem capitals_plain : ∀ n : Fin 26, Plain (Char.ofNat (65 + n)) := by decide

theorem ten_digits_plain : ∀ n : Fin 10, Plain (Char.ofNat (48 + n)) := by decide

theorem digit_plain (h : c.isDigit) : Plain c := by
  have hrange : 48 ≤ c.toNat ∧ c.toNat ≤ 57 := by
    simpa [Char.isDigit, UInt32.le_iff_toNat_le] using h
  exact plain_of_range ten_digits_plain hrange.1 (by omega)

theorem digits_plain (n : ℕ) : ∀ c ∈ n.repr.toList, Plain c := by
  intro c hc
  rw [Nat.toList_repr] at hc
  exact digit_plain (Nat.isDigit_of_mem_toDigits (by decide) (by decide) hc)

theorem figure_plain (n : ℤ) : ∀ c ∈ n.repr.toList, Plain c := by
  intro c hc
  cases n with
  | ofNat n => exact digits_plain n c hc
  | negSucc n =>
    have hrepr : (Int.negSucc n).repr.toList = '-' :: (n + 1).repr.toList := by
      simp [Int.repr]
    rw [hrepr] at hc
    rcases List.mem_cons.mp hc with rfl | hc
    · exact ⟨by decide, by decide⟩
    · exact digits_plain (n + 1) c hc

theorem read_figures (figures : List ℤ) :
    (figures.map fun n => n.repr.toList).mapM (fun f => (String.ofList f).toInt?) = some figures := by
  induction figures with
  | nil => rfl
  | cons n figures ih =>
    rw [List.map_cons, List.mapM_cons, ih, String.ofList_toList, Int.toInt?_repr]
    rfl

/-- A member whose UAN and name are plain. -/
structure ECRMember.Clean (m : ECRMember) : Prop where
  uan : ∀ c ∈ m.uan.toList, Plain c
  name : ∀ c ∈ m.name.toList, Plain c

namespace ECRMember.Clean
variable {m : ECRMember}

theorem fields (h : m.Clean) : ∀ field ∈ m.uan.toList :: m.name.toList ::
    m.figures.map fun n => n.repr.toList, ∀ c ∈ field, Plain c := by
  intro field hfield
  rcases List.mem_cons.mp hfield with rfl | hfield
  · exact h.uan
  rcases List.mem_cons.mp hfield with rfl | hfield
  · exact h.name
  obtain ⟨n, -, rfl⟩ := List.mem_map.mp hfield
  exact figure_plain n

theorem split_line (h : m.Clean) : splitText delimiter m.toLine =
    m.uan.toList :: m.name.toList :: m.figures.map fun n => n.repr.toList :=
  split_text_joined (by simp) fun field hfield c hc => (h.fields field hfield c hc).1

theorem read_line (h : m.Clean) : readLine m.toLine = some ⟨m.uan, m.name, m.figures⟩ := by
  unfold readLine
  rw [h.split_line]
  simp only
  rw [if_pos (by simp [figures]), read_figures, String.ofList_toList, String.ofList_toList]
  rfl

theorem one_line (h : m.Clean) : m.toLine ≠ [] ∧ ∀ c ∈ m.toLine, isBreak c = false := by
  constructor
  · intro hnil
    have hsplit := h.split_line
    rw [hnil] at hsplit
    exact absurd (congrArg List.length hsplit) (by simp [splitText, splitTextFrom])
  · intro c hc
    have hdelimiter : ∀ c ∈ delimiter, isBreak c = false := by simp [delimiter, isBreak]
    rcases mem_intercalate hc with hc | ⟨field, hfield, hc⟩
    · exact hdelimiter c hc
    · exact (h.fields field hfield c hc).2

end ECRMember.Clean

section
variable {alphabet : Alphabet} {inputs : Inputs}

theorem shape_of_unrefused (h : memberRefusal alphabet inputs slip = none) :
    uanShape alphabet (inputs.uan slip).toList := by
  by_contra hshape
  unfold memberRefusal at h
  simp only [if_pos hshape] at h
  split at h
  · cases h
  · cases h

/-- A member has the UAN and the cleaned name of a slip's employee, and the UAN is well formed. -/
theorem member_of_slip (h : memberOf alphabet inputs slip = .ok (some m)) :
    m = declared alphabet inputs slip ∧ uanShape alphabet (inputs.uan slip).toList := by
  unfold memberOf at h
  split at h
  · cases h
  split at h
  · cases h
  split at h
  · cases h
  · rename_i hrefusal
    exact ⟨(Option.some.inj (Except.ok.inj h)).symm, shape_of_unrefused hrefusal⟩

theorem member_slip (hm : m ∈ (buildEcr alphabet inputs slips).members) :
    ∃ slip ∈ slips, memberOf alphabet inputs slip = .ok (some m) := by
  obtain ⟨slip, hslip, hmember⟩ := List.mem_filterMap.mp hm
  cases hof : memberOf alphabet inputs slip with
  | error problem =>
    rw [hof] at hmember
    cases hmember
  | ok member =>
    rw [hof] at hmember
    exact ⟨slip, hslip, by rw [hof, ← hmember]⟩

theorem members_clean (h : alphabet.Lawful) (hm : m ∈ (buildEcr alphabet inputs slips).members) :
    m.Clean := by
  obtain ⟨slip, -, hof⟩ := member_slip hm
  obtain ⟨rfl, hshape⟩ := member_of_slip hof
  exact ⟨uan_plain h _ hshape, cleaned_plain h _⟩

/-- The file's text is read back line by line as its members, eleven fields a line, and each of them
has the cleaned name of a slip's employee. -/
theorem file_decodes (h : alphabet.Lawful) (inputs : Inputs) (slips : List Slip) :
    let file := buildEcr alphabet inputs slips
    ((splitLines file.toText.toList).map readLine =
      file.members.map fun m => some ⟨m.uan, m.name, m.figures⟩) ∧
    (∀ line ∈ splitLines file.toText.toList, (splitText delimiter line).length = 11) ∧
    ∀ m ∈ file.members, ∃ slip ∈ slips,
      m.uan = inputs.uan slip ∧ m.name = cleanedName alphabet (inputs.name slip) := by
  intro file
  have hclean : ∀ m ∈ file.members, m.Clean := fun m hm => members_clean h hm
  have hlines : splitLines file.toText.toList = file.members.map ECRMember.toLine := by
    unfold ECRFile.toText
    rw [String.toList_ofList]
    refine split_lines_joined fun line hline => ?_
    obtain ⟨m, hm, rfl⟩ := List.mem_map.mp hline
    exact (hclean m hm).one_line
  rw [hlines]
  refine ⟨?_, ?_, ?_⟩
  · rw [List.map_map]
    exact List.map_congr_left fun m hm => (hclean m hm).read_line
  · intro line hline
    obtain ⟨m, hm, rfl⟩ := List.mem_map.mp hline
    rw [(hclean m hm).split_line]
    simp [ECRMember.figures]
  · intro m hm
    obtain ⟨slip, hslip, hof⟩ := member_slip hm
    obtain ⟨rfl, -⟩ := member_of_slip hof
    exact ⟨slip, hslip, rfl, rfl⟩

end

/-- The tables for the characters below 128. -/
def ascii : Alphabet := ⟨fun c => [c.toUpper], Char.isDigit⟩

theorem ascii_lawful : ascii.Lawful where
  upper c hc d hd := by
    obtain rfl := List.mem_singleton.mp hd
    by_cases hlower : c.isLower
    · have hrange : 97 ≤ c.toNat ∧ c.toNat ≤ 122 := by
        simpa [Char.isLower, UInt32.le_iff_toNat_le] using hlower
      rw [Char.toUpper_eq_of_isLower hlower]
      have := capitals_plain ⟨c.toNat - 97, by omega⟩
      rwa [show 65 + (c.toNat - 97) = c.toNat - 32 by omega] at this
    · rwa [Char.toUpper_eq_of_not_isLower hlower]
  digit _ hc := digit_plain hc

/-- A member whose name holds the delimiter and a line end. -/
def oddName : Employee := ⟨some "Odd#~#Name\nB", some "100200300400", true, false⟩

def oddSlip : Slip :=
  ⟨some "e1", some 180000, some 180000, some 125000, some 55000, false, some 1500000, none, none, none,
    some 2000000, none⟩

def oddInputs : Inputs := ⟨fun _ => some oddName, 30, 1500000, none⟩

theorem odd_name_decodes :
    (splitLines (buildEcr ascii oddInputs [oddSlip]).toText.toList).map readLine =
      [some ⟨"100200300400", "ODD NAME B", [20000, 15000, 15000, 15000, 2350, 1250, 1100, 0, 0]⟩] := by
  rw [(file_decodes ascii_lawful oddInputs [oddSlip]).1]
  decide +kernel

end Caflow.Payroll.Ecr
