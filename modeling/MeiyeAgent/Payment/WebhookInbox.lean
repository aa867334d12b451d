import Mathlib.Logic.Function.Basic
import MeiyeAgent.Foundation.Json
import MeiyeAgent.Machinery.Effect

/-!
# Payment/WebhookInbox — webhooks from their receipt to their settlement

A delivery is received into the events and the outbox, claimed under a lease, applied, checkpointed,
settled and completed.  HTTP handlers and scheduled workers run side by side; each statement of the
database and each call of a port is one step, and a process can stop between any two.  Instants are
those of the database, in milliseconds.
-/

namespace MeiyeAgent

inductive PaymentProviderName
  | stripe | waffo
  deriving DecidableEq

inductive PaymentWebhookReceipt
  | accepted | busy | processed
  deriving DecidableEq

structure PaymentWebhookDelivery where
  provider : PaymentProviderName
  providerEventId : String
  deriving DecidableEq

structure CanonicalPaymentWebhook extends PaymentWebhookDelivery where
  eventType : String
  payload : String
  signature : String
  deriving DecidableEq

/-- What a provider has made of a webhook; `facts` is the rest of it as JSON. -/
structure VerifiedPaymentWebhookEvent where
  provider : PaymentProviderName
  providerEventId : String
  providerDeliveryId : Option String := none
  facts : Json

/-- The delivery an event says it is of. -/
def VerifiedPaymentWebhookEvent.delivery (event : VerifiedPaymentWebhookEvent) :
    PaymentWebhookDelivery where
  provider := event.provider
  providerEventId := event.providerDeliveryId.getD event.providerEventId

/-- A claim; `appliedEvent` is there once the webhook was applied, to an event or to none. -/
structure PaymentWebhookClaim extends CanonicalPaymentWebhook where
  appliedEvent : Option (Option VerifiedPaymentWebhookEvent)
  attemptCount : Nat
  claimToken : String

/-! ## Tables -/

inductive WebhookEventStatus
  | verified | processed
  deriving DecidableEq

structure WebhookEventRow where
  eventType : String
  status : WebhookEventStatus

inductive WebhookOutboxStatus
  | pending | processing | retry | completed
  deriving DecidableEq

/-- A row of `payment_webhook_settlement_outbox`; `applied` is `normalized_event`, where
`provider_applied_at` is set. -/
structure WebhookOutboxRow where
  payload : String
  signature : String
  status : WebhookOutboxStatus
  attemptCount : Nat
  availableAt : Int
  leaseExpiresAt : Option Int := none
  claimToken : Option String := none
  lastErrorCode : Option String := none
  applied : Option (Option VerifiedPaymentWebhookEvent) := none

structure WebhookTables where
  events : PaymentWebhookDelivery → Option WebhookEventRow := fun _ => none
  outbox : PaymentWebhookDelivery → Option WebhookOutboxRow := fun _ => none

namespace PostgresPaymentWebhookInbox

/-- The status of an event row that is written again. -/
def verifiedStatus : Option WebhookEventRow → WebhookEventStatus
  | some { status := .processed, .. } => .processed
  | _ => .verified

def receive (tables : WebhookTables) (event : CanonicalPaymentWebhook) (now : Int) :
    PaymentWebhookReceipt × WebhookTables :=
  let delivery := event.toPaymentWebhookDelivery
  let status := verifiedStatus (tables.events delivery)
  let tables := { tables with
    events := Function.update tables.events delivery
      (some { eventType := event.eventType, status }) }
  if status = .processed then (.processed, tables)
  else
    match tables.outbox delivery with
    | none =>
      (.accepted, { tables with
        outbox := Function.update tables.outbox delivery (some
          { payload := event.payload
            signature := event.signature
            status := .pending
            attemptCount := 0
            availableAt := now }) })
    | some current => (if current.status = .completed then .processed else .busy, tables)

/-- A row that can be claimed at an instant. -/
def claimable (row : WebhookOutboxRow) (now : Int) : Bool :=
  ((row.status = .pending ∨ row.status = .retry) ∧ row.availableAt ≤ now) ∨
    (row.status = .processing ∧ row.leaseExpiresAt.any (· ≤ now))

/-- A row that is claimed. -/
def claimed (row : WebhookOutboxRow) (claimToken : String) (now : Int) : WebhookOutboxRow :=
  { row with
    status := .processing
    claimToken := some claimToken
    attemptCount := row.attemptCount + 1
    leaseExpiresAt := some (now + 5 * 60000)
    lastErrorCode := none }

/-- `claimNext` where it chooses the row of a delivery, which must be claimable: the rows before it
may be locked by others. -/
def claimNext (tables : WebhookTables) (delivery : PaymentWebhookDelivery) (claimToken : String)
    (now : Int) : Option (PaymentWebhookClaim × WebhookTables) := do
  let row ← tables.outbox delivery
  let event ← tables.events delivery
  if claimable row now then
    return (
      { toPaymentWebhookDelivery := delivery
        eventType := event.eventType
        payload := row.payload
        signature := row.signature
        appliedEvent := row.applied
        attemptCount := row.attemptCount + 1
        claimToken },
      { tables with
        outbox := Function.update tables.outbox delivery (some (claimed row claimToken now)) })
  else none

/-- The row of a claim, if the claim is not lost. -/
def heldRow (tables : WebhookTables) (claim : PaymentWebhookClaim) : Option WebhookOutboxRow :=
  (tables.outbox claim.toPaymentWebhookDelivery).filter fun row =>
    row.status = .processing ∧ row.claimToken = some claim.claimToken

def checkpointApplied (tables : WebhookTables) (claim : PaymentWebhookClaim)
    (event : Option VerifiedPaymentWebhookEvent) : Option WebhookTables := do
  let row ← heldRow tables claim
  return { tables with
    outbox := Function.update tables.outbox claim.toPaymentWebhookDelivery
      (some { row with applied := some event }) }

def complete (tables : WebhookTables) (claim : PaymentWebhookClaim) : Option WebhookTables := do
  let row ← heldRow tables claim
  let delivery := claim.toPaymentWebhookDelivery
  return {
    events := Function.update tables.events delivery
      ((tables.events delivery).map ({ · with status := .processed }))
    outbox := Function.update tables.outbox delivery (some { row with
      status := .completed
      claimToken := none
      leaseExpiresAt := none
      lastErrorCode := none }) }

def retry (tables : WebhookTables) (claim : PaymentWebhookClaim) (errorCode : String) (now : Int) :
    Option WebhookTables := do
  let row ← heldRow tables claim
  return { tables with
    outbox := Function.update tables.outbox claim.toPaymentWebhookDelivery (some { row with
      status := .retry
      availableAt := now + 30000
      claimToken := none
      leaseExpiresAt := none
      lastErrorCode := some errorCode }) }

end PostgresPaymentWebhookInbox

/-- `/^[A-Z0-9_]{1,80}$/u` on the code of an error. -/
def safeWebhookErrorCode (code : Option String) : String :=
  match code with
  | some code =>
    if 1 ≤ code.length ∧ code.length ≤ 80 ∧
        code.toList.all fun c => c.isUpper ∨ c.isDigit ∨ c = '_' then code
    else "PAYMENT_WEBHOOK_SETTLEMENT_FAILED"
  | none => "PAYMENT_WEBHOOK_SETTLEMENT_FAILED"

/-! ## Processes -/

/-- How a handler or a worker ends. -/
inductive WebhookAnswer
  | receipt (receipt : PaymentWebhookReceipt)
  | deferred
  | failed
  | drained (completed failed : Nat)
  deriving DecidableEq

/-- Where a handler or a worker stands: about to receive, to claim, and, under a claim, to apply, to
checkpoint, to settle, to complete, to retry. -/
inductive WebhookPhase
  | receiving (event : CanonicalPaymentWebhook)
  | claiming
  | applying (claim : PaymentWebhookClaim)
  | checkpointing (claim : PaymentWebhookClaim) (event : Option VerifiedPaymentWebhookEvent)
  | settling (claim : PaymentWebhookClaim) (event : VerifiedPaymentWebhookEvent)
  | completing (claim : PaymentWebhookClaim)
  | retrying (claim : PaymentWebhookClaim) (errorCode : String)
  | ended (answer : WebhookAnswer)

/-- A handler of one delivery, or a worker of all: its receipt, the rest of its loop and its
counts. -/
structure WebhookProcess where
  delivery : Option PaymentWebhookDelivery
  receipt : Option PaymentWebhookReceipt := none
  remaining : Nat
  completed : Nat := 0
  failed : Nat := 0
  phase : WebhookPhase

/-- What has happened, under which claim. -/
inductive WebhookEntry
  | claimed (delivery : PaymentWebhookDelivery) (token : String)
      (applied : Option (Option VerifiedPaymentWebhookEvent))
  | applying (token : String)
  | checkpointed (delivery : PaymentWebhookDelivery) (token : String)
      (event : Option VerifiedPaymentWebhookEvent)
  | settling (delivery : PaymentWebhookDelivery) (token : String)
      (event : VerifiedPaymentWebhookEvent)
  | settled (delivery : PaymentWebhookDelivery) (token : String)
  | answered (delivery : PaymentWebhookDelivery) (receipt : PaymentWebhookReceipt)

structure WebhookState where
  tables : WebhookTables := {}
  processes : Nat → Option WebhookProcess := fun _ => none
  log : List WebhookEntry := []

/-- What becomes of a statement: its answer arrives, it fails, or its answer is lost; in the last
two the process sees an error, with a code or without. -/
inductive StatementFate
  | answered
  | failed (code : Option String)
  | lost (code : Option String)
  deriving DecidableEq

/-- What the process steps on: the fate and the clock of a statement, the token and the row of a
claim, the answer of a port; and a process can start, and stop for good. -/
inductive WebhookMove
  | deliver (event : CanonicalPaymentWebhook) (limit : Nat)
  | work (limit : Nat)
  | statement (fate : StatementFate) (now : Int)
  | claim (fate : StatementFate) (now : Int) (token : String)
      (chosen : Option PaymentWebhookDelivery)
  | applied (result : Except (Option String) (Option VerifiedPaymentWebhookEvent))
  | settled (result : Except (Option String) Unit)
  | crash

namespace WebhookProcess

/-- What `receiveAndSettlePaymentWebhook` answers once the loop has ended. -/
def finish (process : WebhookProcess) : WebhookAnswer :=
  match process.receipt with
  | none => .drained process.completed process.failed
  | some receipt =>
    if 0 < process.failed ∨ (receipt = .accepted ∧ process.completed ≠ 1) then .deferred
    else .receipt receipt

/-- The head of the loop. -/
def loop (process : WebhookProcess) : WebhookProcess :=
  { process with phase := if process.remaining = 0 then .ended process.finish else .claiming }

end WebhookProcess

namespace WebhookState

def put (s : WebhookState) (i : Nat) (process : WebhookProcess) : WebhookState :=
  { s with processes := Function.update s.processes i (some process) }

def note (s : WebhookState) (entry : WebhookEntry) : WebhookState :=
  { s with log := s.log ++ [entry] }

/-- A process goes to the head of its loop, and answers where that has ended. -/
def turn (s : WebhookState) (i : Nat) (process : WebhookProcess) : WebhookState :=
  let process := process.loop
  match process.delivery, process.phase with
  | some delivery, .ended (.receipt receipt) => (s.put i process).note (.answered delivery receipt)
  | _, _ => s.put i process

/-- The event of a claim is known: it is checked against the claim, and then checkpointed, settled
or, where there is none, completed. -/
def onward (s : WebhookState) (i : Nat) (process : WebhookProcess) (claim : PaymentWebhookClaim)
    (event : Option VerifiedPaymentWebhookEvent) : WebhookState :=
  match event, claim.appliedEvent with
  | some event, applied =>
    if event.delivery ≠ claim.toPaymentWebhookDelivery then
      s.put i { process with phase := .retrying claim "WEBHOOK_IDENTITY_MISMATCH" }
    else if applied.isSome then
      (s.put i { process with phase := .settling claim event }).note
        (.settling claim.toPaymentWebhookDelivery claim.claimToken event)
    else s.put i { process with phase := .checkpointing claim (some event) }
  | none, some _ =>
    (s.put i { process with phase := .completing claim }).note
      (.settled claim.toPaymentWebhookDelivery claim.claimToken)
  | none, none => s.put i { process with phase := .checkpointing claim none }

def drop (s : WebhookState) (i : Nat) (process : WebhookProcess) (answer : WebhookAnswer) :
    WebhookState := s.put i { process with phase := .ended answer }

/-- An error under a claim is to be retried. -/
def fail (s : WebhookState) (i : Nat) (process : WebhookProcess) (claim : PaymentWebhookClaim)
    (code : Option String) : WebhookState :=
  s.put i { process with phase := .retrying claim (safeWebhookErrorCode code) }

/-- The event is checkpointed, and goes on to be settled. -/
def checkpointed (s : WebhookState) (i : Nat) (process : WebhookProcess)
    (claim : PaymentWebhookClaim) (event : Option VerifiedPaymentWebhookEvent) : WebhookState :=
  match event with
  | some event => (s.put i { process with phase := .settling claim event }).note
      (.settling claim.toPaymentWebhookDelivery claim.claimToken event)
  | none => (s.put i { process with phase := .completing claim }).note
      (.settled claim.toPaymentWebhookDelivery claim.claimToken)

open PostgresPaymentWebhookInbox

/-- `receive`, and what follows its answer. -/
def stepReceive (s : WebhookState) (i : Nat) (process : WebhookProcess)
    (event : CanonicalPaymentWebhook) (fate : StatementFate) (now : Int) : WebhookState :=
  let (receipt, tables) := PostgresPaymentWebhookInbox.receive s.tables event now
  match fate with
  | .failed _ => s.drop i process .failed
  | .lost _ => { s with tables }.drop i process .failed
  | .answered =>
    if receipt = .busy then { s with tables }.drop i process (.receipt .busy)
    else { s with tables }.turn i { process with receipt := some receipt }

/-- `claimNext`, and what follows its answer. -/
def stepClaim (s : WebhookState) (i : Nat) (process : WebhookProcess) (fate : StatementFate)
    (now : Int) (token : String) (chosen : Option PaymentWebhookDelivery) : WebhookState :=
  match chosen with
  | none =>
    match fate with
    | .answered => s.turn i { process with remaining := 0 }
    | _ => s.drop i process .failed
  | some delivery =>
    if process.delivery.any (· ≠ delivery) then s
    else
      match fate, claimNext s.tables delivery token now with
      | _, none => s
      | .failed _, some _ => s.drop i process .failed
      | .lost _, some (claim, tables) =>
        ({ s with tables }.note (.claimed delivery token claim.appliedEvent)).drop i process .failed
      | .answered, some (claim, tables) =>
        let s := { s with tables }.note (.claimed delivery token claim.appliedEvent)
        match claim.appliedEvent with
        | none => (s.put i { process with phase := .applying claim }).note (.applying token)
        | some event => s.onward i process claim event

/-- `checkpointApplied`, and what follows its answer. -/
def stepCheckpoint (s : WebhookState) (i : Nat) (process : WebhookProcess)
    (claim : PaymentWebhookClaim) (event : Option VerifiedPaymentWebhookEvent)
    (fate : StatementFate) : WebhookState :=
  match fate, checkpointApplied s.tables claim event with
  | _, none => s.fail i process claim none
  | .failed code, some _ => s.fail i process claim code
  | .lost code, some tables =>
    ({ s with tables }.note (.checkpointed claim.toPaymentWebhookDelivery claim.claimToken
      event)).fail i process claim code
  | .answered, some tables =>
    ({ s with tables }.note (.checkpointed claim.toPaymentWebhookDelivery claim.claimToken
      event)).checkpointed i process claim event

/-- `complete`, and what follows its answer. -/
def stepComplete (s : WebhookState) (i : Nat) (process : WebhookProcess)
    (claim : PaymentWebhookClaim) (fate : StatementFate) : WebhookState :=
  match fate, complete s.tables claim with
  | _, none => s.fail i process claim none
  | .failed code, some _ => s.fail i process claim code
  | .lost code, some tables => { s with tables }.fail i process claim code
  | .answered, some tables =>
    { s with tables }.turn i { process with
      completed := process.completed + 1
      remaining := process.remaining - 1 }

/-- `retry`, and what follows its answer. -/
def stepRetry (s : WebhookState) (i : Nat) (process : WebhookProcess)
    (claim : PaymentWebhookClaim) (errorCode : String) (fate : StatementFate) (now : Int) :
    WebhookState :=
  match fate, retry s.tables claim errorCode now with
  | _, none => s.drop i process .failed
  | .failed _, some _ => s.drop i process .failed
  | .lost _, some tables => { s with tables }.drop i process .failed
  | .answered, some tables =>
    { s with tables }.turn i { process with
      failed := process.failed + 1
      remaining := process.remaining - 1 }

/-- One step of one process; a move that is not its next leaves it where it is. -/
def step (s : WebhookState) : Nat × WebhookMove → WebhookState
  | (i, move) =>
    match s.processes i, move with
    | none, .deliver event limit => s.put i
        { delivery := some event.toPaymentWebhookDelivery
          remaining := limit
          phase := .receiving event }
    | none, .work limit => s.turn i { delivery := none, remaining := limit, phase := .claiming }
    | none, _ => s
    | some process, .crash => s.drop i process .failed
    | some process, move =>
      match process.phase, move with
      | .receiving event, .statement fate now => s.stepReceive i process event fate now
      | .claiming, .claim fate now token chosen => s.stepClaim i process fate now token chosen
      | .applying claim, .applied (.ok event) => s.onward i process claim event
      | .applying claim, .applied (.error code) => s.fail i process claim code
      | .checkpointing claim event, .statement fate _ => s.stepCheckpoint i process claim event fate
      | .settling claim _, .settled (.ok ()) =>
        (s.put i { process with phase := .completing claim }).note
          (.settled claim.toPaymentWebhookDelivery claim.claimToken)
      | .settling claim _, .settled (.error code) => s.fail i process claim code
      | .completing claim, .statement fate _ => s.stepComplete i process claim fate
      | .retrying claim errorCode, .statement fate now =>
        s.stepRetry i process claim errorCode fate now
      | _, _ => s

end WebhookState

end MeiyeAgent
