import Caflow.Banking.Cheque
import Caflow.Lib.Interleaving

namespace Caflow.Banking.ChequeConverted
open Interleaving
open IsoDate (Date)

/-- The cheque's row, and the receipts or payments made from it. -/
structure Store where
  cheque : Cheque
  documents : List EnginePayload

inductive Call where
  /-- An edit, with what the accounts, the documents and the other cheques make of it. -/
  | update (changes : Changes) (tables : Cheque → Option Failure)
  | cancel
  | convert (today : Date) (presentedOn : Option Date) (documentId : String)

inductive Phase where
  | readRow
  | checkTables (current : Cheque)
  | writeEdit (edit : Edit)
  | writeCancel
  | claim (read : Cheque) (presentedOn : Date)
  | engine (payload : EnginePayload)
  | release (failure : Failure)
  | link
  | finished
  | refused (failure : Failure)

def Phase.Ended : Phase → Prop
  | .finished | .refused _ => True
  | _ => False

instance : DecidablePred Phase.Ended
  | .finished | .refused _ => isTrue trivial
  | .readRow | .checkTables _ | .writeEdit _ | .writeCancel | .claim _ _ | .engine _ | .release _
  | .link => isFalse id

def updateStep (changes : Changes) (tables : Cheque → Option Failure) (store : Store) (phase : Phase) :
    Store × Phase :=
  match phase with
  | .readRow =>
    if store.cheque.status ≠ .held then
      (store, .refused (.http 409 ("This cheque is " ++
        (if store.cheque.status = .converted then "converted" else "cancelled") ++
        " and can no longer be edited.")))
    else
      match changes.problem store.cheque with
      | some problem => (store, .refused (.http 422 problem))
      | none => (store, .checkTables store.cheque)
  | .checkTables current =>
    match tables current with
    | some failure => (store, .refused failure)
    | none => (store, .writeEdit (changes.edit current))
  | .writeEdit edit =>
    if store.cheque.status = .held then
      ({ store with cheque := store.cheque.edited edit }, .finished)
    else
      (store, .refused (.http 409 "This cheque was converted or cancelled while you were editing it."))
  | _ => (store, phase)

def cancelStep (store : Store) (phase : Phase) : Store × Phase :=
  match phase with
  | .readRow =>
    match store.cheque.status with
    | .held => (store, .writeCancel)
    | .converted =>
      (store, .refused (.http 409 ("This cheque has already been converted into a receipt or " ++
        "payment; reverse that document on its own screen.")))
    | .cancelled => (store, .refused (.http 409 "This cheque is already cancelled."))
  | .writeCancel =>
    if store.cheque.status = .held then
      ({ store with cheque := { store.cheque with status := .cancelled } }, .finished)
    else (store, .refused (.http 409 "This cheque has just been converted."))
  | _ => (store, phase)

/-- The engine is one statement: it makes the document, or fails and makes none. -/
def convertStep (today : Date) (presentedOn : Option Date) (documentId : String) (store : Store)
    (phase : Phase) (reply : Option Failure) : Store × Phase :=
  match phase with
  | .readRow =>
    let when := presentedOn.getD today
    match conversionProblem store.cheque.status store.cheque.chequeDate when today with
    | some problem => (store, .refused (.http 409 problem))
    | none => (store, .claim store.cheque when)
  | .claim read when =>
    if store.cheque.status = .held then
      ({ store with cheque := { store.cheque with status := .converted } },
        .engine (enginePayload read when).2)
    else (store, .refused (.http 409 "This cheque has just been converted or cancelled."))
  | .engine payload =>
    match reply with
    | some failure => (store, .release failure)
    | none => ({ store with documents := store.documents ++ [payload] }, .link)
  | .release failure =>
    if store.cheque.status = .converted then
      ({ store with cheque := { store.cheque with status := .held } }, .refused failure)
    else (store, .refused failure)
  | .link =>
    ({ store with cheque := { store.cheque with convertedDocumentId := some documentId } },
      .finished)
  | _ => (store, phase)

variable {ι : Type}

def advance (calls : ι → Call) (i : ι) (store : Store) (phase : Phase) (reply : Option Failure) :
    Store × Phase :=
  match calls i with
  | .update changes tables => updateStep changes tables store phase
  | .cancel => cancelStep store phase
  | .convert today presentedOn documentId =>
    convertStep today presentedOn documentId store phase reply

def start (store : Store) : World ι Store Phase := ⟨store, fun _ => .readRow⟩

/-- No more than one document, of a cheque that is converted, with its amount, number and
allocations. -/
structure Store.Honest (store : Store) : Prop where
  single : store.documents.length ≤ 1
  converted : store.documents ≠ [] → store.cheque.status = .converted
  matching : ∀ document ∈ store.documents, document.MatchesRow store.cheque

/-- A claim that goes through finds the figures the call read still on the cheque. -/
def Unedited (_ : ι) (store : Store) (phase : Phase) (_ : Option Failure) : Prop :=
  match phase with
  | .claim read when =>
    store.cheque.status = .held → (enginePayload read when).2.MatchesRow store.cheque
  | _ => True

instance (i : ι) (store : Store) (phase : Phase) (reply : Option Failure) :
    Decidable (Unedited i store phase reply) := by
  unfold Unedited
  split <;> infer_instance

/-- The call has the cheque to itself, from its claim to the document or the release. -/
def Phase.holds : Phase → Bool
  | .engine _ | .release _ => true
  | _ => false

/-- What a call's place says of the cheque. -/
def Standing (store : Store) : Phase → Prop
  | .engine payload =>
    store.cheque.status = .converted ∧ store.documents = [] ∧ payload.MatchesRow store.cheque
  | .release _ => store.cheque.status = .converted ∧ store.documents = []
  | .link => store.documents ≠ []
  | _ => True

structure Inv (w : World ι Store Phase) : Prop where
  honest : w.store.Honest
  standing : ∀ i, Standing w.store (w.phase i)
  alone : Alone Phase.holds w.phase

theorem inv_start {store : Store} (h : store.Honest) : Inv (start store : World ι Store Phase) :=
  ⟨h, fun _ => trivial, fun i j hi => by cases hi⟩

/-- What a step has to keep, the rest following from it. -/
structure Keeps (w : World ι Store Phase) (i : ι) (store : Store) (phase : Phase) : Prop where
  honest : store.Honest
  own : Standing store phase
  others : ∀ j, j ≠ i → Standing w.store (w.phase j) → Standing store (w.phase j)
  alone : phase.holds → (w.phase i).holds ∨ ∀ j, (w.phase j).holds = false

section
variable {w : World ι Store Phase} {failure : Failure}

theorem Inv.stays (h : Inv w) (hown : Standing w.store p) (hholds : p.holds → (w.phase i).holds) :
    Keeps w i w.store p :=
  ⟨h.honest, hown, fun _ _ hj => hj, fun hp => .inl (hholds hp)⟩

theorem Inv.stands (h : Inv w) (hphase : w.phase i = p) : Keeps w i w.store p := by
  subst hphase
  exact h.stays (h.standing i) fun hp => hp

theorem Inv.none_made (h : Inv w) (hstatus : w.store.cheque.status ≠ .converted) :
    w.store.documents = [] := by
  by_contra hmade
  exact hstatus (h.honest.converted hmade)

/-- Whoever has the cheque has it converted. -/
theorem holds_converted {store : Store} (h : Standing store p) (hholds : p.holds = true) :
    store.cheque.status = .converted := by
  cases p with
  | engine payload | release failure => exact h.1
  | _ => cases hholds

/-- While the cheque is held no call has it. -/
theorem Inv.none_holds (h : Inv w) (hstatus : w.store.cheque.status ≠ .converted) (j : ι) :
    (w.phase j).holds = false := by
  cases hholds : (w.phase j).holds with
  | false => rfl
  | true => exact absurd (holds_converted (h.standing j) hholds) hstatus

/-- A place without the cheque asks only that a document stays. -/
theorem standing_free {store store' : Store} (hfree : p.holds = false)
    (hdocuments : store.documents ≠ [] → store'.documents ≠ []) (h : Standing store p) :
    Standing store' p := by
  cases p with
  | engine payload | release failure => cases hfree
  | link => exact hdocuments h
  | _ => trivial

/-- A write to a cheque that is not converted: nothing was made from it and nobody has it. -/
theorem Inv.writes (h : Inv w) (hstatus : w.store.cheque.status = .held) (cheque : Cheque)
    (hown : Standing { w.store with cheque := cheque } p) :
    Keeps w i { w.store with cheque := cheque } p := by
  have hnot : w.store.cheque.status ≠ .converted := by
    rw [hstatus]
    decide
  have hnone := h.none_made hnot
  refine ⟨⟨h.honest.single, fun hmade => absurd hnone hmade, ?_⟩, hown, fun j _ hj => ?_,
    fun _ => .inr (h.none_holds hnot)⟩
  · intro document hdocument
    rw [show ({ w.store with cheque := cheque } : Store).documents = [] from hnone] at hdocument
    cases hdocument
  · exact standing_free (h.none_holds hnot j) (by exact fun hmade => hmade) hj

theorem Inv.makes (h : Inv w) (hphase : w.phase i = .engine payload) :
    Keeps w i { w.store with documents := w.store.documents ++ [payload] } .link := by
  have hown := h.standing i
  rw [hphase] at hown
  obtain ⟨hstatus, hnone, hmatches⟩ := hown
  have hholds : (w.phase i).holds = true := by
    rw [hphase]
    rfl
  rw [hnone]
  refine ⟨⟨le_rfl, fun _ => hstatus, fun document hdocument => ?_⟩, List.cons_ne_nil _ _,
    fun j hj hstanding => ?_, nofun⟩
  · rw [List.mem_singleton.mp hdocument]
    exact hmatches
  · exact standing_free (h.alone.others_free hholds j hj) (fun _ => List.cons_ne_nil _ _) hstanding

theorem Inv.releases (h : Inv w) (hphase : w.phase i = .release failure) (cheque : Cheque) :
    Keeps w i { w.store with cheque := cheque } (.refused failure) := by
  have hown := h.standing i
  rw [hphase] at hown
  obtain ⟨-, hnone⟩ := hown
  have hholds : (w.phase i).holds = true := by
    rw [hphase]
    rfl
  refine ⟨⟨h.honest.single, fun hmade => absurd hnone hmade, ?_⟩, trivial,
    fun j hj hstanding => ?_, nofun⟩
  · intro document hdocument
    rw [show ({ w.store with cheque := cheque } : Store).documents = [] from hnone] at hdocument
    cases hdocument
  · exact standing_free (h.alone.others_free hholds j hj) (by exact fun hmade => hmade) hstanding

/-- The link back to the document changes none of the figures it shares with the cheque. -/
theorem Inv.links (h : Inv w) (documentId : String) :
    Keeps w i { w.store with cheque := { w.store.cheque with convertedDocumentId := some documentId } }
      .finished := by
  refine ⟨⟨h.honest.single, h.honest.converted, h.honest.matching⟩, trivial, fun j _ hj => ?_, nofun⟩
  cases hp : w.phase j <;> rw [hp] at hj <;> exact hj

theorem update_keeps (h : Inv w) (changes : Changes) (tables : Cheque → Option Failure) :
    let next := updateStep changes tables w.store (w.phase i)
    Keeps w i next.1 next.2 := by
  cases hphase : w.phase i with
  | readRow =>
    unfold updateStep
    dsimp only
    split
    · exact h.stays trivial nofun
    · split <;> exact h.stays trivial nofun
  | checkTables current =>
    unfold updateStep
    dsimp only
    split <;> exact h.stays trivial nofun
  | writeEdit edit =>
    unfold updateStep
    dsimp only
    split
    · rename_i hheld
      exact h.writes hheld _ trivial
    · exact h.stays trivial nofun
  | _ => exact h.stands hphase

theorem cancel_keeps (h : Inv w) :
    let next := cancelStep w.store (w.phase i)
    Keeps w i next.1 next.2 := by
  cases hphase : w.phase i with
  | readRow =>
    unfold cancelStep
    dsimp only
    split <;> exact h.stays trivial nofun
  | writeCancel =>
    unfold cancelStep
    dsimp only
    split
    · rename_i hheld
      exact h.writes hheld _ trivial
    · exact h.stays trivial nofun
  | _ => exact h.stands hphase

theorem convert_keeps (h : Inv w) (hunedited : Unedited i w.store (w.phase i) reply)
    (today : Date) (presentedOn : Option Date) (documentId : String) :
    let next := convertStep today presentedOn documentId w.store (w.phase i) reply
    Keeps w i next.1 next.2 := by
  cases hphase : w.phase i with
  | readRow =>
    unfold convertStep
    dsimp only
    split <;> exact h.stays trivial nofun
  | claim read when =>
    rw [hphase] at hunedited
    unfold convertStep
    dsimp only
    split
    · rename_i hheld
      have hnone : w.store.documents = [] := h.none_made (by rw [hheld]; decide)
      exact h.writes hheld _ ⟨rfl, hnone, hunedited hheld⟩
    · exact h.stays trivial nofun
  | engine payload =>
    cases reply with
    | none => exact h.makes hphase
    | some failure =>
      have hown := h.standing i
      rw [hphase] at hown
      exact h.stays ⟨hown.1, hown.2.1⟩ (by rw [hphase]; exact fun hp => hp)
  | release failure =>
    unfold convertStep
    dsimp only
    split
    · exact h.releases hphase _
    · exact h.stays trivial nofun
  | link => exact h.links documentId
  | _ => exact h.stands hphase

variable {calls : ι → Call} {reply : Option Failure}

theorem advance_keeps (calls : ι → Call) (h : Inv w) (hunedited : Unedited i w.store (w.phase i) reply) :
    let next := advance calls i w.store (w.phase i) reply
    Keeps w i next.1 next.2 := by
  unfold advance
  cases calls i with
  | update changes tables => exact update_keeps h changes tables
  | cancel => exact cancel_keeps h
  | convert today presentedOn documentId =>
    exact convert_keeps h hunedited today presentedOn documentId

theorem Inv.step [DecidableEq ι] (h : Inv w) (hunedited : Unedited i w.store (w.phase i) reply) :
    Inv (step (advance calls) w (i, reply)) := by
  have hkeeps := advance_keeps calls h hunedited
  exact ⟨hkeeps.honest, (Function.forall_update_iff w.phase fun _ p => Standing _ p).mpr
    ⟨hkeeps.own, fun j hj => hkeeps.others j hj (h.standing j)⟩, Alone.update h.alone hkeeps.alone⟩

/-- In every run where no edit comes between a call's reading of the cheque and its claim, at most
one document is made, the cheque is converted from then on, and it holds the document's amount,
number and allocations. -/
theorem cheque_converted_once [DecidableEq ι] {store : Store} (h : store.Honest)
    (hrun : Along (advance calls) Unedited (start store) events) :
    (run (advance calls) (start store) events).store.Honest :=
  (run_keeps Inv (fun _ _ _ hw hok => hw.step hok) events (inv_start h) hrun).honest

end

def firstOfApril : Date := .of 2026 4 1

/-- A cheque of a thousand paise that falls due on the first of April. -/
def aprilCheque : Cheque where
  direction := .received
  partyId := "anand"
  chequeNo := "000123"
  chequeDate := firstOfApril
  amountPaise := 1000
  draweeBank := none
  bankAccountId := none
  allocations := [⟨"INV-1", 1000⟩]
  status := .held
  notes := none
  convertedDocumentId := none
  numbered := by decide +kernel

def toNineHundred : Changes :=
  ⟨none, none, some 900, none, none, some [⟨"INV-1", 900⟩], none⟩

/-- The first call edits the cheque, the second converts it. -/
def editAndConvert : Fin 2 → Call :=
  ![.update toNineHundred fun _ => none, .convert firstOfApril none "RC-1"]

def after (order : List (Fin 2)) : World (Fin 2) Store Phase :=
  run (advance editAndConvert) (start ⟨aprilCheque, []⟩) (order.map (·, none))

theorem april_cheque_honest : Store.Honest ⟨aprilCheque, []⟩ :=
  ⟨by decide, fun h => absurd rfl h, nofun⟩

/-- An edit between a call's reading of the cheque and its claim: the receipt is of a thousand
paise, the cheque of nine hundred. -/
theorem cheque_converted_stale :
    Store.Honest ⟨aprilCheque, []⟩ ∧
    (∀ i, ((after [1, 0, 0, 0, 1, 1, 1]).phase i).Ended) ∧
    ((after [1, 0, 0, 0, 1, 1, 1]).store.documents.map EnginePayload.amountPaise,
      (after [1, 0, 0, 0, 1, 1, 1]).store.cheque.amountPaise) = ([1000], 900) ∧
    ¬ (after [1, 0, 0, 0, 1, 1, 1]).store.Honest := by
  have hfigures : ((after [1, 0, 0, 0, 1, 1, 1]).store.documents.map EnginePayload.amountPaise,
      (after [1, 0, 0, 0, 1, 1, 1]).store.cheque.amountPaise) = ([1000], 900) := by decide +kernel
  refine ⟨april_cheque_honest, by decide +kernel, hfigures, fun h => ?_⟩
  obtain ⟨hmade, hrow⟩ := Prod.mk.inj hfigures
  obtain ⟨document, hdocument, hamount⟩ := List.mem_map.mp
    (hmade ▸ List.mem_singleton_self (1000 : ℤ))
  have hsame := (h.matching document hdocument).1
  rw [hamount, hrow] at hsame
  exact absurd hsame (by decide)

/-- The edit first, and then the conversion. -/
theorem cheque_converted_in_turn :
    (run (advance editAndConvert) (start ⟨aprilCheque, []⟩)
      (([0, 0, 0, 1, 1, 1, 1] : List (Fin 2)).map (·, none))).store.Honest :=
  cheque_converted_once april_cheque_honest (by decide +kernel)

end Caflow.Banking.ChequeConverted
