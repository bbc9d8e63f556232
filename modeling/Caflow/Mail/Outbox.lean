import Caflow.Lib.Interleaving

namespace Caflow.Mail
open Interleaving

inductive Status where
  | pending
  | sending
  | sent
  | failed
  | cancelled
  | suppressed
  deriving DecidableEq

def Status.terminal : Status → Bool
  | .pending => false
  | .sending => false
  | _ => true

/-- A message of the outbox. -/
structure OutboxRow where
  id : ℕ
  status : Status := .pending
  attempts : ℕ := 0
  maxAttempts : ℕ
  nextAttemptAt : ℤ
  leaseExpiresAt : Option ℤ := none
  lastAttemptAt : Option ℤ := none
  sentAt : Option ℤ := none
  providerMessageId : Option String := none
  lastStatusCode : Option ℕ := none
  lastErrorCode : Option String := none
  finalReason : Option String := none
  deliveryEvent : Option String := none
  deliveryEventAt : Option ℤ := none
  updatedAt : ℤ
  origin : String
  recipientKind : String
  recipientUserId : Option String
  subject : String
  html : String
  logIds : List String
  deriving DecidableEq

/-- One drainer's claim of a message, the attempt it stands for. -/
structure Claim where
  id : ℕ
  attempts : ℕ
  drainer : ℕ
  deriving DecidableEq

/-- The store, and what came of its messages: the claims from the latest on, the calls of the
transport, how messages ended, and whose log rows were turned to not delivered. -/
structure Outbox where
  clock : ℤ
  rows : List OutboxRow := []
  created : List ℕ := []
  claims : List Claim := []
  calls : List (ℕ × ℕ) := []
  ends : List (ℕ × Status) := []
  flipped : List ℕ := []

structure QueuedMail where
  maxAttempts : ℕ
  origin : String
  recipientKind : String
  recipientUserId : Option String
  subject : String
  html : String
  logIds : List String

def Outbox.insert (o : Outbox) (m : QueuedMail) : Outbox :=
  { o with
    rows := o.rows ++ [{ id := o.created.length, maxAttempts := m.maxAttempts,
                         nextAttemptAt := o.clock, updatedAt := o.clock, origin := m.origin,
                         recipientKind := m.recipientKind, recipientUserId := m.recipientUserId,
                         subject := m.subject, html := m.html, logIds := m.logIds }]
    created := o.created ++ [m.maxAttempts] }

def OutboxRow.due (now : ℤ) (r : OutboxRow) : Bool :=
  (r.status = .pending && r.nextAttemptAt ≤ now) ||
    (r.status = .sending && r.leaseExpiresAt.any (· ≤ now))

def OutboxRow.claimed (now leaseSeconds : ℤ) (r : OutboxRow) : OutboxRow :=
  { r with
    status := .sending
    attempts := r.attempts + 1
    leaseExpiresAt := some (now + leaseSeconds)
    lastAttemptAt := some now
    updatedAt := now }

/-- The due messages that waited longest. -/
def Outbox.taken (o : Outbox) (limit : ℕ) : List OutboxRow :=
  ((o.rows.filter (·.due o.clock)).insertionSort fun a b => a.nextAttemptAt ≤ b.nextAttemptAt).take limit

def claimable (limit : ℕ) (leaseSeconds : ℤ) : Bool :=
  1 ≤ limit && limit ≤ 200 && 30 ≤ leaseSeconds && leaseSeconds ≤ 3600

/-- Hand out the due messages: what the drainer gets is what they are from then on. -/
def Outbox.claimDue (o : Outbox) (limit : ℕ) (leaseSeconds : ℤ) (drainer : ℕ) :
    Outbox × List OutboxRow :=
  if claimable limit leaseSeconds then
    let taken := o.taken limit
    ({ o with
       rows := o.rows.map fun r => if r ∈ taken then r.claimed o.clock leaseSeconds else r
       claims := (taken.map fun r => ⟨r.id, r.attempts + 1, drainer⟩) ++ o.claims },
     taken.map (·.claimed o.clock leaseSeconds))
  else (o, [])

/-- Whether a message is still at the attempt a drainer claimed. -/
def Outbox.held (o : Outbox) (id attempts : ℕ) : Bool :=
  o.rows.any fun r => r.id = id && r.status = .sending && r.attempts = attempts

inductive Mark where
  | sent (providerMessageId : Option String) (statusCode : Option ℕ)
  | retry (nextAttemptAt : ℤ) (statusCode : Option ℕ) (errorCode : Option String)
  | final (status : Status) (reason : String) (statusCode : Option ℕ) (errorCode : Option String)

def Mark.apply (now : ℤ) (m : Mark) (r : OutboxRow) : OutboxRow :=
  match m with
  | .sent providerMessageId statusCode =>
    { r with
      status := .sent
      sentAt := some now
      providerMessageId := providerMessageId
      lastStatusCode := statusCode
      lastErrorCode := none
      leaseExpiresAt := none
      subject := ""
      html := ""
      updatedAt := now }
  | .retry nextAttemptAt statusCode errorCode =>
    { r with
      status := .pending
      nextAttemptAt := nextAttemptAt
      lastStatusCode := statusCode
      lastErrorCode := errorCode
      leaseExpiresAt := none
      updatedAt := now }
  | .final status reason statusCode errorCode =>
    { r with
      status := status
      finalReason := some reason
      lastStatusCode := statusCode
      lastErrorCode := errorCode
      leaseExpiresAt := none
      subject := ""
      html := ""
      updatedAt := now }

/-- How a mark ends its message, if it does. -/
def Mark.ending : Mark → Option Status
  | .sent _ _ => some .sent
  | .retry _ _ _ => none
  | .final status _ _ _ => some status

/-- Write what became of an attempt, if the message is still held at it. -/
def Outbox.mark (o : Outbox) (id attempts : ℕ) (m : Mark) : Outbox × Bool :=
  if o.held id attempts then
    ({ o with
       rows := o.rows.map fun r =>
         if r.id = id ∧ r.status = .sending ∧ r.attempts = attempts then m.apply o.clock r else r
       ends := match m.ending with
         | none => o.ends
         | some status => (id, status) :: o.ends },
     true)
  else (o, false)

def Outbox.setDeliveryEvent (o : Outbox) (messageId event : String) : Outbox :=
  { o with rows := o.rows.map fun r =>
      if r.providerMessageId = some messageId then
        { r with deliveryEvent := some event, deliveryEventAt := some o.clock }
      else r }

def Outbox.prune (o : Outbox) (olderThanSeconds : ℤ) : Outbox :=
  { o with rows := o.rows.filter fun r =>
      !(r.status.terminal && decide (r.updatedAt < o.clock - olderThanSeconds)) }

def backoffMinutes : List ℤ := [1, 5, 15, 60, 240]

/-- The seconds to wait after a failed attempt. -/
def backoffFor (attempts : ℕ) : ℤ :=
  60 * backoffMinutes.getD (min (max attempts 1) backoffMinutes.length - 1) 0

/-- What the checks before sending find: the switch, the person if there is one and whether they are
active, their own preference, and the suppression list. -/
structure GateReads where
  mailEnabled : Bool
  person : Option Bool
  wantsEmail : Bool
  suppressed : Bool

/-- A reason not to send a message now. -/
def gate (r : OutboxRow) (reads : GateReads) : Option (Status × String) :=
  if r.origin = "practice_notice" ∧ !reads.mailEnabled then some (.cancelled, "switched_off")
  else if r.recipientKind = "staff" ∧ (r.recipientUserId.isNone ∨ reads.person ≠ some true) then
    some (.cancelled, "inactive_recipient")
  else if r.recipientKind = "staff" ∧ !reads.wantsEmail then some (.cancelled, "preference_off")
  else if reads.suppressed then some (.suppressed, "suppressed")
  else none

structure TransportOutcome where
  ok : Bool
  retryable : Bool
  messageId : Option String
  statusCode : Option ℕ
  code : Option String

/-- Where a drainer stands with the messages it claimed. -/
inductive Phase where
  | idle (queue : List OutboxRow)
  | gating (row : OutboxRow) (queue : List OutboxRow)
  | transporting (row : OutboxRow) (queue : List OutboxRow)
  | marking (row : OutboxRow) (mark : Mark) (queue : List OutboxRow)
  | logging (row : OutboxRow) (queue : List OutboxRow)

/-- The next message of a batch: given up when its attempts are spent, else checked. -/
def deliverOne (row : OutboxRow) (queue : List OutboxRow) : Phase :=
  if row.maxAttempts < row.attempts then
    .marking row (.final .failed "abandoned" none none) queue
  else .gating row queue

def retry (clock : ℤ) (row : OutboxRow) (statusCode : Option ℕ) (errorCode : Option String) : Mark :=
  .retry (clock + backoffFor row.attempts) statusCode errorCode

def afterGate (row : OutboxRow) (reads : GateReads) (queue : List OutboxRow) : Phase :=
  match gate row reads with
  | some (status, reason) => .marking row (.final status reason none none) queue
  | none => .transporting row queue

def markOf (clock : ℤ) (row : OutboxRow) (outcome : TransportOutcome) : Mark :=
  if outcome.ok then .sent outcome.messageId outcome.statusCode
  else if outcome.retryable ∧ row.attempts < row.maxAttempts then
    retry clock row outcome.statusCode outcome.code
  else .final .failed (outcome.code.getD "unknown") outcome.statusCode outcome.code

/-- The log rows of a message that ended undelivered are turned back. -/
def afterMark (row : OutboxRow) (m : Mark) (queue : List OutboxRow) : Phase :=
  match m with
  | .final _ _ _ _ => .logging row queue
  | _ => .idle queue

/-- What may come next: the clock moves, a message is queued, an event comes back or finished
messages are dropped whatever a drainer does; a drainer claims, takes the next message, reads what
the checks ask, hears from the transport, has a mark answered or not, turns the log rows; a step
raises, or the drainer stops. -/
inductive Reply where
  | clock (now : ℤ)
  | queued (m : QueuedMail)
  | event (messageId event : String)
  | prune (olderThanSeconds : ℤ)
  | claim (limit : ℕ) (leaseSeconds : ℤ) (answered : Bool)
  | next
  | checked (reads : GateReads)
  | transported (outcome : TransportOutcome)
  | marked (answered : Bool)
  | logged
  | raised
  | stopped

def advance (drainer : ℕ) (o : Outbox) (p : Phase) (r : Reply) : Outbox × Phase :=
  match r, p with
  | .clock now, p => ({ o with clock := now }, p)
  | .queued m, p => (o.insert m, p)
  | .event messageId event, p => (o.setDeliveryEvent messageId event, p)
  | .prune olderThanSeconds, p => (o.prune olderThanSeconds, p)
  | .stopped, _ => (o, .idle [])
  | .claim limit leaseSeconds answered, .idle [] =>
    let claimed := o.claimDue limit leaseSeconds drainer
    (claimed.1, .idle (if answered then claimed.2 else []))
  | .next, .idle (row :: queue) => (o, deliverOne row queue)
  | .checked reads, .gating row queue => (o, afterGate row reads queue)
  | .raised, .gating row queue => (o, .marking row (retry o.clock row none (some "gate_error")) queue)
  | .transported outcome, .transporting row queue =>
    ({ o with calls := (row.id, row.attempts) :: o.calls },
      .marking row (markOf o.clock row outcome) queue)
  | .raised, .transporting row queue =>
    ({ o with calls := (row.id, row.attempts) :: o.calls }, .idle queue)
  | .marked answered, .marking row m queue =>
    let marked := o.mark row.id row.attempts m
    (marked.1, if answered ∧ marked.2 then afterMark row m queue else .idle queue)
  | .raised, .marking _ _ queue => (o, .idle queue)
  | .logged, .logging row queue => ({ o with flipped := row.id :: o.flipped }, .idle queue)
  | .raised, .logging _ queue => (o, .idle queue)
  | _, p => (o, p)

def start (clock : ℤ) : World ℕ Outbox Phase := ⟨{ clock := clock }, fun _ => .idle []⟩

end Caflow.Mail
