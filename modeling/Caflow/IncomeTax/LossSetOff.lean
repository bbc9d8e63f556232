import Caflow.Text
import Caflow.Lib.SetOff

set_option linter.all false

namespace Caflow.IncomeTax
open SetOff

/-- The stored loss types. -/
inductive LossKind
  | business | speculation | capitalShortTerm | capitalLongTerm | houseProperty | other

/-- The type a stored spelling names, in any case and with white space around it. -/
def kindOf (lossType : String) : Option LossKind :=
  match Text.lower (Text.strip lossType) with
  | "business" => some .business
  | "speculation" => some .speculation
  | "capital_short_term" => some .capitalShortTerm
  | "capital_long_term" => some .capitalLongTerm
  | "house_property" => some .houseProperty
  | "other" => some .other
  | _ => none

def LossKind.label : LossKind → String
  | .business => "business"
  | .speculation => "speculation"
  | .capitalShortTerm => "capital short term"
  | .capitalLongTerm => "capital long term"
  | .houseProperty => "house property"
  | .other => "other"

/-- Under which section a loss is set off. -/
def LossKind.setOffSection : LossKind → String
  | .business => "§72"
  | .speculation => "§73"
  | .houseProperty => "§71B"
  | .capitalShortTerm => "§74(1)(a)"
  | .capitalLongTerm => "§74(1)(b)"
  | .other => "—"

/-- Under which section a loss is carried forward, and for how many years. -/
def LossKind.carryForward : LossKind → String × Option ℕ
  | .business => ("§72(3)", some 8)
  | .speculation => ("§73(4)", some 4)
  | .capitalShortTerm | .capitalLongTerm => ("§74(2)", some 8)
  | .houseProperty => ("§71B", some 8)
  | .other => ("—", none)

inductive IncomeHead
  | business | houseProperty | stcg | ltcg | ltcgOther
  deriving DecidableEq

structure BroughtForwardLoss where
  lossType : String
  amountPaise : ℤ
  expiryAssessmentYear : Option String := none
  isExpired : Bool := false
  sourceItrAck : Option String := none
  lossId : Option String := none

def BroughtForwardLoss.offeredPaise (loss : BroughtForwardLoss) : ℤ := max 0 loss.amountPaise

structure SetOffLine where
  lossType : String
  underSection : String
  offeredPaise : ℤ
  setOffPaise : ℤ
  carriedForwardPaise : ℤ
  against : List IncomeHead
  reasons : List String
  lossId : Option String

structure SetOffResult where
  heads : IncomeHead → ℤ
  totalSetOffPaise : ℤ
  lines : List SetOffLine
  warnings : List String
  /-- What each loss, by the place it is taken in, took off a head. The source keeps it in locals. -/
  used : List (Draw ℕ IncomeHead)

/-- The closing year of an AAAA-BB label. -/
def ayEndYear (assessmentYear : Option String) : Option ℕ :=
  let first := ((Text.strip (assessmentYear.getD "")).toList).take 4
  if first.length < 4 then none else (Text.readNat first).map (· + 1)

def isAvailable (loss : BroughtForwardLoss) (assessmentYear : Option String) : Bool × String :=
  if loss.isExpired then
    match (kindOf loss.lossType).map LossKind.carryForward with
    | some (underSection, some years) => (false, "The loss is marked expired: " ++ underSection ++
        " allows " ++ toString years ++ " assessment years and they have run out.")
    | _ => (false, "The loss is marked expired, so it is no longer available.")
  else if loss.amountPaise ≤ 0 then (false, "Nothing remains of this loss to set off.")
  else
    match ayEndYear assessmentYear, ayEndYear loss.expiryAssessmentYear with
    | some here, some last =>
      if last < here then (false, "The loss could be carried forward only to " ++
        loss.expiryAssessmentYear.getD "None" ++ ", and this computation is for " ++
        assessmentYear.getD "None" ++ ".")
      else (true, "")
    | _, _ => (true, "")

def SetOffResult.record (r : SetOffResult) (loss : BroughtForwardLoss) (underSection : String)
    (used : ℤ) (against : List IncomeHead) (reason : String) : SetOffResult :=
  { r with
    totalSetOffPaise := r.totalSetOffPaise + used
    lines := r.lines ++ [⟨loss.lossType, underSection, loss.offeredPaise, used,
      loss.offeredPaise - used, against, [reason], loss.lossId⟩] }

def SetOffResult.warn (r : SetOffResult) (warning : String) : SetOffResult :=
  { r with warnings := r.warnings ++ [warning] }

/-- Take an amount off a head, for the loss whose line comes next. -/
def SetOffResult.spend (r : SetOffResult) (h : IncomeHead) (used : ℤ) : SetOffResult :=
  { r with
    heads := Function.update r.heads h (r.heads h - used)
    used := r.used ++ [⟨r.lines.length, h, used⟩] }

/-- The loop of a capital loss over the gains it may reach: what remains of it, and the gains it
was set off against. -/
def SetOffResult.useUp (r : SetOffResult) (remaining : ℤ) :
    List IncomeHead → SetOffResult × ℤ × List IncomeHead
  | [] => (r, remaining, [])
  | h :: hs =>
    if remaining ≤ 0 then (r, remaining, [])
    else
      let used := min remaining (r.heads h)
      if used = 0 then r.useUp remaining hs
      else
        let rest := (r.spend h used).useUp (remaining - used) hs
        (rest.1, rest.2.1, h :: rest.2.2)

def LossKind.reason : LossKind → String
  | .business => "§72 allows a carried-forward business loss against the profits and gains of " ++
    "business or profession, and nothing else — not salary, which §71(2A) bars even for the " ++
    "current year."
  | .speculation => "§73(1) allows a speculation loss to be set off only against profits of another " ++
    "SPECULATION business. This engine does not model speculation as a separate head, so it is " ++
    "carried forward in full rather than set off against ordinary business income — which is the " ++
    "very thing the section prevents."
  | .houseProperty => "§71B carries a house-property loss forward for eight assessment years, to " ++
    "be set off against income under that head and no other."
  | .capitalLongTerm => "§74(1)(b) allows a long-term capital loss to be set off only against a " ++
    "LONG-TERM capital gain. Short-term gains are not available to it, and no other head is."
  | .capitalShortTerm => "§74(1)(a) allows a short-term capital loss against capital gains of " ++
    "either kind — but under no other head. §71(3) denies a capital loss any relief against " ++
    "salary, business or other income, and §74 carries it forward on the same terms."
  | .other => "The head this loss arose under is not identified, so no section can be applied to " ++
    "it. Record it as business, speculation, house property or capital (short or long) and it " ++
    "will be set off under §72, §73, §71B or §74."

def unknownReason (lossType : String) : String :=
  "'" ++ lossType ++ "' is not a loss type this engine has a rule for, so no section can be " ++
    "applied to it and nothing is set off. Record it under one of: business, capital_long_term, " ++
    "capital_short_term, house_property, other, speculation."

def ackWarning (kind : LossKind) : String :=
  "The " ++ kind.label ++ " loss carries no acknowledgement of the return that first reported it. " ++
    "§139(3) with §80 allows a loss to be carried forward only where that return was furnished by " ++
    "the §139(1) due date — it has been set off, and that is the one fact to confirm before filing."

def speculationWarning : String :=
  "A brought-forward speculation loss was carried forward rather than set off: §73 needs a " ++
    "speculation-income head this computation does not hold."

def otherWarning : String :=
  "A brought-forward loss recorded as 'other' was not set off: its head decides which section " ++
    "reaches it."

/-- Set one loss off against the one head its section allows. -/
def SetOffResult.against (r : SetOffResult) (loss : BroughtForwardLoss) (kind : LossKind)
    (h : IncomeHead) : SetOffResult :=
  let used := min loss.offeredPaise (r.heads h)
  (r.spend h used).record loss kind.setOffSection used [h] kind.reason

/-- Set one capital loss off against gains, one after the other. -/
def SetOffResult.againstGains (r : SetOffResult) (loss : BroughtForwardLoss) (kind : LossKind)
    (gains : List IncomeHead) : SetOffResult :=
  let spent := r.useUp loss.offeredPaise gains
  spent.1.record loss kind.setOffSection (loss.offeredPaise - spent.2.1) spent.2.2 kind.reason

def applyKind (r : SetOffResult) (loss : BroughtForwardLoss) (kind : LossKind) : SetOffResult :=
  match kind with
  | .business => r.against loss kind .business
  | .speculation => (r.record loss kind.setOffSection 0 [] kind.reason).warn speculationWarning
  | .houseProperty => r.against loss kind .houseProperty
  | .capitalLongTerm => r.againstGains loss kind [.ltcg, .ltcgOther]
  | .capitalShortTerm => r.againstGains loss kind [.stcg, .ltcg, .ltcgOther]
  | .other => (r.record loss kind.setOffSection 0 [] kind.reason).warn otherWarning

def applyLoss (assessmentYear : Option String) (r : SetOffResult) (loss : BroughtForwardLoss) :
    SetOffResult :=
  match kindOf loss.lossType with
  | none => (r.record loss "—" 0 [] (unknownReason loss.lossType)).warn
      ("A brought-forward loss of an unknown type ('" ++ loss.lossType ++ "') was not set off.")
  | some kind =>
    let available := isAvailable loss assessmentYear
    if !available.1 then r.record loss kind.setOffSection 0 [] available.2
    else applyKind (if loss.sourceItrAck.getD "" = "" then r.warn (ackWarning kind) else r) loss kind

/-- Long-term losses before short-term ones, by the spelling that is stored. -/
def orderKey (lossType : String) : ℕ :=
  if lossType = "capital_long_term" then 0 else if lossType = "capital_short_term" then 1 else 2

/-- The losses in the order they are taken: a stable sort. -/
def taken (losses : List BroughtForwardLoss) : List BroughtForwardLoss :=
  losses.insertionSort fun a b => orderKey a.lossType ≤ orderKey b.lossType

def applyBroughtForwardLosses (losses : List BroughtForwardLoss) (incomes : IncomeHead → ℤ)
    (assessmentYear : Option String) : SetOffResult :=
  (taken losses).foldl (applyLoss assessmentYear) ⟨incomes, 0, [], [], []⟩

/-- The heads that a kind of loss may be set off against, in the order they are taken. -/
def LossKind.homes : LossKind → List IncomeHead
  | .business => [.business]
  | .houseProperty => [.houseProperty]
  | .capitalLongTerm => [.ltcg, .ltcgOther]
  | .capitalShortTerm => [.stcg, .ltcg, .ltcgOther]
  | .speculation | .other => []

/-- The heads a loss may be set off against in a year. -/
def allowedHeads (assessmentYear : Option String) (loss : BroughtForwardLoss) : List IncomeHead :=
  match kindOf loss.lossType with
  | none => []
  | some kind => if (isAvailable loss assessmentYear).1 then kind.homes else []

end Caflow.IncomeTax
