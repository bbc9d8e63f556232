import Caflow.Gst.Gstr3bComputer

namespace Caflow.Gst
open Rule364

/-- A document whose counterpart the reconciliation looked for. -/
def Asked (d : BookDocument) : Prop :=
  d.isReverseCharge = false ∧ d.documentId.getD "" ≠ "" ∧ d.wasExamined = true

/-- Whether a 2B is on file for the period. -/
def have2bOf (inputs : Gstr3bInputs) : Bool :=
  inputs.have2b.getD (0 < inputs.gstr2aRecords.length)

/-- The credit that GSTR-2B carries in all. It has no cess. -/
def communicated (inputs : Gstr3bInputs) : Tax :=
  Tax.of (inputs.gstr2aRecords.map (·.igstPaise)).sum (inputs.gstr2aRecords.map (·.cgstPaise)).sum
    (inputs.gstr2aRecords.map (·.sgstPaise)).sum 0

def importCredit (inputs : Gstr3bInputs) : Tax :=
  Tax.of (inputs.importsOfGoods.map fun b => b.igstPaise - b.ineligibleIgstPaise).sum 0 0
    (inputs.importsOfGoods.map fun b => b.cessPaise - b.ineligibleCessPaise).sum

/-- Credit on tax the recipient assessed on itself. -/
def selfAssessed (inputs : Gstr3bInputs) : Tax :=
  ((inputs.purchases.filter (·.isReverseCharge)).map (·.eligible)).sum

/-- Credit on what suppliers and customs communicate, from these documents alone. -/
def otherCredit (inputs : Gstr3bInputs) : Tax :=
  ((inputs.purchases.filter (!·.isReverseCharge)).map (·.eligible)).sum + importCredit inputs

/-- The other credit under the aggregate cap, which has no head for cess. -/
def cappedCredit (inputs : Gstr3bInputs) : Tax := fun h =>
  if h = .cess then otherCredit inputs .cess
  else (applyRule364Cap (otherCredit inputs h) (communicated inputs h) (have2bOf inputs)).1

/-- Each document against 2B, as the return asks it. -/
def assessment (inputs : Gstr3bInputs) : Assessment :=
  assess (inputs.purchases.map (·.document)) inputs.twoBByDocument (have2bOf inputs)

theorem other_credit_eq (inputs : Gstr3bInputs) :
    otherCredit inputs =
      (inputs.purchases.map (·.eligible)).sum + importCredit inputs - selfAssessed inputs := by
  have hsplit : ∀ ps : List PurchaseTransaction, (ps.map (·.eligible)).sum =
      ((ps.filter (!·.isReverseCharge)).map (·.eligible)).sum +
        ((ps.filter (·.isReverseCharge)).map (·.eligible)).sum := by
    intro ps
    induction ps with
    | nil => simp
    | cons p ps ih => cases hp : p.isReverseCharge <;> simp [hp, ih] <;> abel
  rw [otherCredit, selfAssessed, hsplit inputs.purchases]
  abel

/-- Without a document-by-document assessment the return takes the credit under the aggregate
cap, and the self-assessed credit whole. -/
theorem itc_without (inputs : Gstr3bInputs) (h : Head) :
    (tablesOf { inputs with twoBByDocument := none }).itc h =
      cappedCredit inputs h + selfAssessed inputs h := by
  have hother : otherCredit inputs .cess + selfAssessed inputs .cess =
      ((inputs.purchases.map (·.eligible)).sum + importCredit inputs) .cess := by
    simp [other_credit_eq]
  cases h with
  | cess =>
    rw [cappedCredit, if_pos rfl, hother]
    rfl
  | igst | cgst | sgst =>
    rw [cappedCredit, if_neg (by decide), other_credit_eq]
    rfl

theorem itc_with (inputs : Gstr3bInputs) (h : Head) :
    (tablesOf inputs).itc h =
      if (assessment inputs).applied then
        min (cappedCredit inputs h + selfAssessed inputs h)
          ((assessment inputs).allowed h + importCredit inputs h)
      else cappedCredit inputs h + selfAssessed inputs h := by
  rw [← itc_without]
  change (if (assessment inputs).applied then fun h => min _ _ else _ : Tax) h = _
  split_ifs <;> rfl

theorem sum_at (l : List α) (f : α → Tax) (h : Head) :
    (l.map f).sum h = (l.map fun x => f x h).sum := by
  rw [Pi.list_sum_apply, List.map_map]
  rfl

theorem matched_mem {twoB : Option TwoBDocument} (h : twoB.filter (·.matched) = some filed) :
    filed ∈ twoB := (Option.filter_eq_some_iff.mp h).1

/-- A supplier's note of a rupee, and a bank charge of three rupees that no bill stands behind. -/
def creditNote : BookDocument := ⟨some "note", "Note 1", "Mill", Tax.of (-100) 0 0 0, false, true⟩

end Caflow.Gst
