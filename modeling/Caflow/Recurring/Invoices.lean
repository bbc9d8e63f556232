import Caflow.Lib.Interleaving
import Caflow.Recurring.Recurrence

namespace Caflow.Recurring
open Interleaving
open Calendar (Day)

structure Template where
  id : ℕ
  clientId : ℕ
  active : Bool
  frequency : Frequency
  startDate : Day
  endDate : Option Day
  nextRunDate : Option Day
  deriving DecidableEq

/-- A sales invoice made by these calls. What it was made for is known of it however little of it
got written. -/
structure Draft where
  id : ℕ
  clientId : ℕ
  invoiceDate : Day
  hasLines : Bool
  stamp : Option (ℕ × Day)
  madeFor : ℕ × Day

inductive RunStatus where
  | generated
  | failed

structure RunRow where
  templateId : ℕ
  occurrenceDate : Day
  invoiceId : Option ℕ
  status : RunStatus

structure Store where
  templates : List Template
  drafts : List Draft
  made : ℕ
  runs : List RunRow

/-- The invoice of an occurrence, by its stamp. -/
def Store.findGenerated (s : Store) (key : ℕ × Day) : Option Draft :=
  s.drafts.find? (·.stamp = some key)

def Store.createInvoice (s : Store) (t : Template) (occ : Day) : Store :=
  { s with
    drafts := s.drafts ++ [{ id := s.made, clientId := t.clientId, invoiceDate := occ,
                             hasLines := true, stamp := none, madeFor := (t.id, occ) }]
    made := s.made + 1 }

/-- The unique index refuses a stamp that another invoice has. -/
def Store.duplicate (s : Store) (draft : ℕ) (key : ℕ × Day) : Bool :=
  s.drafts.any fun d => d.stamp = some key && d.id ≠ draft

def Store.stampRecurring (s : Store) (draft : ℕ) (key : ℕ × Day) : Store :=
  { s with drafts := s.drafts.map fun d => if d.id = draft then { d with stamp := some key } else d }

def Store.deleteLines (s : Store) (draft : ℕ) : Store :=
  { s with drafts := s.drafts.map fun d => if d.id = draft then { d with hasLines := false } else d }

def Store.deleteDraft (s : Store) (draft : ℕ) : Store :=
  { s with drafts := s.drafts.filter (·.id ≠ draft) }

def Store.recordRun (s : Store) (row : RunRow) : Store :=
  { s with runs := s.runs.filter (fun r =>
      !(r.templateId = row.templateId && r.occurrenceDate = row.occurrenceDate)) ++ [row] }

def Store.setNextRun (s : Store) (templateId : ℕ) (next : Day) : Store :=
  { s with templates := s.templates.map fun t =>
      if t.id = templateId then { t with nextRunDate := some next } else t }

inductive Call where
  | generateDue (clientId : Option ℕ) (asOf : Day)
  | runForTemplate (templateId : ℕ) (asOf : Day)

def Call.asOf : Call → Day
  | .generateDue _ asOf => asOf
  | .runForTemplate _ asOf => asOf

/-- The templates a call goes through, as they stand when it reads them. -/
def Call.templates (s : Store) : Call → List Template
  | .generateDue clientId _ =>
    s.templates.filter fun t => t.active && clientId.all (t.clientId = ·)
  | .runForTemplate templateId _ => (s.templates.find? (·.id = templateId)).toList.filter (·.active)

/-- The occurrence a call is at, and the templates it has yet to go through. -/
structure Job where
  template : Template
  rest : List Template
  occ : Day
  steps : ℕ
  deriving DecidableEq

def Job.key (job : Job) : ℕ × Day := (job.template.id, job.occ)

inductive Phase where
  | begin
  | look (job : Job)
  | create (job : Job)
  | stamp (job : Job) (draft : ℕ)
  | deleteLines (job : Job) (draft : ℕ)
  | deleteDraft (job : Job) (draft : ℕ)
  | findWinner (job : Job)
  | record (job : Job) (invoice : ℕ)
  | recordFailed (job : Job)
  | setNext (job : Job)
  | ended
  deriving DecidableEq

/-- Whether an occurrence is to be generated in this run. -/
def due (asOf : Day) (t : Template) (occ : Day) (steps : ℕ) : Bool :=
  occ ≤ asOf && t.endDate.all (occ ≤ ·) && steps < maxCatchupPerRun

def nextTemplate (asOf : Day) : List Template → Phase
  | [] => .ended
  | t :: rest =>
    match t.nextRunDate with
    | none => nextTemplate asOf rest
    | some occ => if due asOf t occ 0 then .look ⟨t, rest, occ, 0⟩ else nextTemplate asOf rest

/-- After an occurrence, the next of the template, or the next template. -/
def nextStep (asOf : Day) (job : Job) : Phase :=
  let next := nextOccurrence job.template.frequency job.template.startDate job.occ
  if due asOf job.template next (job.steps + 1) then
    .look { job with occ := next, steps := job.steps + 1 }
  else nextTemplate asOf job.rest

/-- What becomes of a statement: it is done and answered; it is refused, or done without an answer,
and raises; the invoice engine answers that it could not; or the call stops before it. -/
inductive Reply where
  | done
  | refused
  | lost
  | unsuccessful (took : Bool)
  | stopped
  deriving DecidableEq

def Reply.takes : Reply → Bool
  | .done | .lost | .unsuccessful true => true
  | .refused | .unsuccessful false | .stopped => false

/-- A call's statements. An error while an occurrence is generated leaves its template for the next
one; elsewhere it leaves the call. -/
def advanceCall (call : Call) (s : Store) (p : Phase) (r : Reply) : Store × Phase :=
  match p with
  | .begin =>
    (s, if r = .done then nextTemplate call.asOf (call.templates s) else .ended)
  | .look job =>
    (s, if r = .done then
          if (s.findGenerated job.key).isSome then .setNext job else .create job
        else nextTemplate call.asOf job.rest)
  | .create job =>
    (if r.takes then s.createInvoice job.template job.occ else s,
      match r with
      | .done => .stamp job s.made
      | .unsuccessful _ => .recordFailed job
      | _ => nextTemplate call.asOf job.rest)
  | .stamp job draft =>
    if s.duplicate draft job.key then (s, .deleteLines job draft)
    else
      (if r.takes then s.stampRecurring draft job.key else s,
        if r = .done then .record job draft else .deleteLines job draft)
  | .deleteLines job draft =>
    (if r.takes then s.deleteLines draft else s,
      if r = .done then .deleteDraft job draft else nextTemplate call.asOf job.rest)
  | .deleteDraft job draft =>
    (if r.takes then s.deleteDraft draft else s,
      if r = .done then .findWinner job else nextTemplate call.asOf job.rest)
  | .findWinner job =>
    (s, if r = .done then
          match s.findGenerated job.key with
          | some winner => .record job winner.id
          | none => nextTemplate call.asOf job.rest
        else nextTemplate call.asOf job.rest)
  | .record job invoice =>
    (if r.takes then s.recordRun ⟨job.template.id, job.occ, some invoice, .generated⟩ else s,
      .setNext job)
  | .recordFailed job =>
    (if r.takes then s.recordRun ⟨job.template.id, job.occ, none, .failed⟩ else s,
      nextTemplate call.asOf job.rest)
  | .setNext job =>
    (if r.takes then
        s.setNextRun job.template.id
          (nextOccurrence job.template.frequency job.template.startDate job.occ)
      else s,
      if r = .done then nextStep call.asOf job else .ended)
  | .ended => (s, .ended)

variable {ι : Type}

def advance (calls : ι → Call) (i : ι) (s : Store) (p : Phase) (r : Reply) : Store × Phase :=
  if r = .stopped then (s, .ended) else advanceCall (calls i) s p r

def start (s : Store) : World ι Store Phase := ⟨s, fun _ => .begin⟩

end Caflow.Recurring
