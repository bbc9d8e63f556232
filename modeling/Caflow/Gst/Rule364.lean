import Caflow.Gst.CreditLedger

namespace Caflow.Gst.Rule364

/-- One inward document as the books hold it, its blocked credit taken off. -/
structure BookDocument where
  documentId : Option String
  label : String
  supplier : String
  tax : Tax
  isReverseCharge : Bool
  wasExamined : Bool

/-- What the reconciliation recorded about a document's counterpart in GSTR-2B. -/
structure TwoBDocument where
  matched : Bool
  itcAvailable : String
  reasonCode : String
  tax : Tax

inductive Verdict
  | allowed | selfAssessed | notIn2b | blockedBy2b | moreThan2b | notAssessed
  deriving DecidableEq

structure DocumentVerdict where
  documentId : Option String
  label : String
  supplier : String
  verdict : Verdict
  reason : String
  allowed : Tax
  withheld : Tax

structure Assessment where
  applied : Bool
  verdicts : List DocumentVerdict
  allowed : Tax
  withheld : Tax
  notes : List String

def Assessment.notAssessed (a : Assessment) : List DocumentVerdict :=
  a.verdicts.filter (fun v => v.verdict = .notAssessed)

def no2bOnFile : String :=
  "No GSTR-2B has been reconciled for this period, so no document could be checked against one. " ++
    "§16(2)(aa) is not applied here and the figures below are the books' own — upload the " ++
    "period's GSTR-2B and reconcile to see which documents the portal actually carries."

def notAssessedReason : String :=
  "This bill was recorded after the GSTR-2B for its period was reconciled, so that " ++
    "reconciliation never examined it and its silence is not evidence the supplier failed to " ++
    "file. The credit is not withheld here — re-run the GSTR-2B reconciliation for this period " ++
    "to have §16(2)(aa) asked of it."

def selfAssessedReason : String :=
  "Reverse charge. §16(2)(aa) conditions the credit on a SUPPLIER's furnished invoice; this tax " ++
    "is self-assessed by the recipient and discharged in cash under §49(4) with §2(82), so " ++
    "GSTR-2B cannot carry it and Rule 36(4) does not reach it."

def notIn2bReason : String :=
  "No GSTR-2B document matched this bill, so the supplier has not furnished it under §37 or it " ++
    "was not communicated for this period. §16(2)(aa) withholds the credit until they do."

/-- The codes of GSTR-2B that are spelled out. -/
def itcUnavailableReason (code : String) : Option String :=
  if code = "P" then some ("the place of supply and the supplier's State are the same while the " ++
    "recipient is in another State (CGST §16(2)(aa) with IGST §12)")
  else if code = "C" then some ("the supplier furnished the return after the §16(4) cut-off for " ++
    "this credit")
  else none

def reasonForBlock (code : String) : String :=
  let key := Text.upper (Text.strip code)
  match itcUnavailableReason key with
  | some spelled =>
    "GSTR-2B marks this document ITC-unavailable (reason " ++ key ++ "): " ++ spelled ++ "."
  | none =>
    if Text.strip code = "" then
      "GSTR-2B marks this document ITC-unavailable and gives no reason code."
    else "GSTR-2B marks this document ITC-unavailable with reason code " ++ Text.strip code ++
      ", which is not one this product spells out. Read it on the portal before claiming the credit."

def moreThan2bReason (withheld : Tax) : String :=
  let exceeded := (heads.filter (fun h => withheld h ≠ 0)).map fun h =>
    h.upper ++ " " ++ Text.rupeeText (withheld h)
  "The books carry more tax on this document than GSTR-2B communicated (" ++ ", ".intercalate exceeded ++
    "). §16(2)(aa) allows the credit to the figure furnished; the excess is withheld until the " ++
    "supplier amends it."

def assessOne (d : BookDocument) (twoB : Option TwoBDocument) : DocumentVerdict :=
  let answer := fun verdict reason allowed withheld =>
    (⟨d.documentId, d.label, d.supplier, verdict, reason, allowed, withheld⟩ : DocumentVerdict)
  if d.isReverseCharge then answer .selfAssessed selfAssessedReason d.tax 0
  else if ∀ h, d.tax h = 0 then answer .allowed "" d.tax 0
  else if d.documentId.getD "" = "" then answer .allowed "" d.tax 0
  else if !d.wasExamined then answer .notAssessed notAssessedReason d.tax 0
  else
    match twoB.filter (·.matched) with
    | none => answer .notIn2b notIn2bReason 0 d.tax
    | some filed =>
      if Text.upper (Text.strip filed.itcAvailable) = "N" then
        answer .blockedBy2b (reasonForBlock filed.reasonCode) 0 d.tax
      else
        let allowed : Tax := fun h => if d.tax h ≤ filed.tax h then d.tax h else filed.tax h
        let withheld : Tax := fun h => d.tax h - allowed h
        if ∀ h, withheld h = 0 then answer .allowed "" allowed withheld
        else answer .moreThan2b (moreThan2bReason withheld) allowed withheld

/-- The credit of each document against GSTR-2B, and the heads that survive. -/
def assess (documents : List BookDocument)
    (twoBByDocument : Option (String → Option TwoBDocument)) (have2b : Bool) : Assessment :=
  match twoBByDocument.filter (fun _ => have2b) with
  | none => ⟨false, [], (documents.map (·.tax)).sum, 0, [no2bOnFile]⟩
  | some twoB =>
    let verdicts := documents.map fun d => assessOne d (twoB (d.documentId.getD ""))
    let unexamined := (verdicts.filter (fun v => v.verdict = .notAssessed)).length
    let unkeyed := (documents.filter (fun d => d.documentId.isNone && !d.isReverseCharge)).length
    { applied := true
      verdicts := verdicts
      allowed := (verdicts.map (·.allowed)).sum
      withheld := (verdicts.map (·.withheld)).sum
      notes :=
        (if unexamined = 0 then [] else
          [toString unexamined ++ " bill(s) were recorded after the GSTR-2B for their period was " ++
            "reconciled, so §16(2)(aa) has not been asked of them and their credit stands. Re-run " ++
            "the GSTR-2B reconciliation for this period to include them."]) ++
        (if unkeyed = 0 then [] else
          [toString unkeyed ++ " document(s) carry no purchase bill to match a GSTR-2B row " ++
            "against — a bank charge marked as carrying GST, or an import of goods, which 2B " ++
            "communicates in its own `impg` section. Their credit is not withheld here."]) }

end Caflow.Gst.Rule364
