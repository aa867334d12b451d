import MeiyeAgent.CreditBilling.Ledger
import MeiyeAgent.Foundation.TextOrder
import MeiyeAgent.Machinery.OrderedMap

/-!
# AgentSession/Confirmations — requests for a confirmation, and the decisions on them

A merchant is asked to confirm an execution; while the answer is out, the credits are held.  The
request moves from pending to decided or to expired, the decision is written once.

* `parseConfirmationRequest`, `parseConfirmationDecision` — what a row has to be: its identifiers
  come out without surrounding blanks.
* `Confirmations` — the two stores, the credit ledger and the frozen authorities.
* `savePending`, `markOwnedStatus`, `append` — the writes of the stores.
-/

namespace MeiyeAgent

open Effect

/-! ## Errors -/

inductive ExecutionConfirmationErrorCode
  | INVALID_STATE
  | NOT_FOUND
  | IDEMPOTENCY_CONFLICT
  | AUTHORITY_ADVANCED
  | TERMINAL_CONFIRMATION_ATTEMPT
  | CAMPAIGN_WORK_ALREADY_OPEN
  | INSUFFICIENT_CREDITS
  | DECISION_IMMUTABLE
  | HOLD_NOT_EXPIRED
  deriving DecidableEq, Repr

/-- What a call may throw: an `ExecutionConfirmationError`, what the ledger throws, what a schema
refuses, what the database refuses, or what the caller's own hook throws. -/
inductive ConfirmationThrown
  | confirmation (code : ExecutionConfirmationErrorCode) (message : String)
  | ledger (thrown : Thrown)
  | schema
  | database (message : String)
  | hook (message : String)
  deriving DecidableEq, Repr

/-! ## Rows -/

inductive RevisionValue
  | number (value : Int)
  | text (value : String)
  deriving DecidableEq, Repr

structure AgentRevisionRef where
  id : String
  revision : RevisionValue
  deriving DecidableEq, Repr

inductive ConfirmationApprovalScope
  | plan_only
  | single_work
  deriving DecidableEq, Repr

inductive ConfirmationStatus
  | pending
  | decided
  | expired
  deriving DecidableEq, Repr

/-- The status as its text. -/
def ConfirmationStatus.text : ConfirmationStatus → String
  | .pending => "pending"
  | .decided => "decided"
  | .expired => "expired"

structure AgentExecutionConfirmationRequest where
  requestId : String
  workspaceId : String
  planId : String
  planRevision : Int
  snapshotHash : String
  quoteRef : AgentRevisionRef
  reservationIdempotencyKey : String
  predecessorRequestId : Option String := none
  replacesReservationIdempotencyKey : Option String := none
  createdAt : String
  holdExpiresAt : String
  status : ConfirmationStatus := .pending
  campaignPlanRef : Option AgentRevisionRef := none
  workOrdinal : Option Int := none
  approvalScope : Option ConfirmationApprovalScope := none
  deriving DecidableEq, Repr

inductive ConfirmationDecision
  | confirmed
  | rejected
  deriving DecidableEq, Repr

structure PlanConfirmationDecision where
  decisionId : String
  requestId : String
  actorId : String
  decision : ConfirmationDecision
  decidedAt : String
  deriving DecidableEq, Repr

structure ConfirmationRequestProjectionFacts where
  reservedCredits : Int
  failureRefundsCredits : Bool
  rightsSummary : Option String
  factSummary : Option String
  deriving DecidableEq, Repr

structure StoredConfirmationRequest where
  request : AgentExecutionConfirmationRequest
  projection : ConfirmationRequestProjectionFacts
  deriving DecidableEq, Repr

/-- The frozen plan of a workflow, as far as a confirmation compares it. -/
structure PendingConfirmationAuthority where
  workflowId : String
  workspaceId : String
  planId : String
  planRevision : Int
  snapshotHash : String
  quoteRef : AgentRevisionRef
  deriving DecidableEq, Repr

/-! ## Schemas -/

/-- **The host of the confirmations**: which texts the schemas take for a date and a time. -/
structure ConfirmationHost extends Host where
  isDatetime : String → Bool

/-- The host of concrete runs. -/
def plainConfirmationHost : ConfirmationHost where
  toHost := isoHost
  isDatetime text := (parseIso text).isSome

/-- Midday of the day the requests of concrete runs are made, in milliseconds. -/
def requestDay : TimeValue := ⟨1767268800000, by decide⟩

def CONFIRMATION_HOLD_MIN_SECONDS : Int := 60 * 60

def CONFIRMATION_HOLD_MAX_SECONDS : Int := 30 * 24 * 60 * 60

namespace RevisionValue

/-- The revision as its schema gives it out. -/
def trimmed : RevisionValue → RevisionValue
  | .number value => .number value
  | .text value => .text (Text.trim value)

def valid : RevisionValue → Bool
  | .number value => isSafeInteger value ∧ 0 ≤ value
  | .text value => value ≠ ""

theorem trimmed_trimmed : ∀ revision : RevisionValue, revision.trimmed.trimmed = revision.trimmed
  | .number _ => rfl
  | .text value => congrArg text (Text.trim_trim value)

end RevisionValue

namespace AgentRevisionRef

/-- The reference as its schema gives it out. -/
def trimmed (ref : AgentRevisionRef) : AgentRevisionRef :=
  ⟨Text.trim ref.id, ref.revision.trimmed⟩

def valid (ref : AgentRevisionRef) : Bool := ref.id ≠ "" ∧ ref.revision.valid

theorem trimmed_trimmed (ref : AgentRevisionRef) : ref.trimmed.trimmed = ref.trimmed := by
  rw [trimmed, trimmed, Text.trim_trim, RevisionValue.trimmed_trimmed]

end AgentRevisionRef

namespace AgentExecutionConfirmationRequest

variable (host : ConfirmationHost)

/-- The request as its schema gives it out. -/
def trimmed (request : AgentExecutionConfirmationRequest) : AgentExecutionConfirmationRequest :=
  { request with
    requestId := Text.trim request.requestId
    workspaceId := Text.trim request.workspaceId
    planId := Text.trim request.planId
    snapshotHash := Text.trim request.snapshotHash
    quoteRef := request.quoteRef.trimmed
    reservationIdempotencyKey := Text.trim request.reservationIdempotencyKey
    predecessorRequestId := request.predecessorRequestId.map Text.trim
    replacesReservationIdempotencyKey := request.replacesReservationIdempotencyKey.map Text.trim
    campaignPlanRef := request.campaignPlanRef.map (·.trimmed) }

/-- The hold lasts between an hour and thirty days, when both dates are read. -/
def holdValid (request : AgentExecutionConfirmationRequest) : Bool :=
  match host.dateParse request.createdAt, host.dateParse request.holdExpiresAt with
  | some created, some expires =>
    let holdSeconds := (expires - created) / 1000
    CONFIRMATION_HOLD_MIN_SECONDS ≤ holdSeconds ∧ holdSeconds ≤ CONFIRMATION_HOLD_MAX_SECONDS
  | _, _ => true

/-- A predecessor is named with the hold it leaves, and the campaign's facts come together. -/
def refined (request : AgentExecutionConfirmationRequest) : Bool :=
  request.predecessorRequestId.isSome = request.replacesReservationIdempotencyKey.isSome ∧
    request.campaignPlanRef.isSome = request.approvalScope.isSome ∧
    request.workOrdinal.isSome = request.approvalScope.isSome

def valid (request : AgentExecutionConfirmationRequest) : Bool :=
  request.requestId ≠ "" ∧ request.workspaceId ≠ "" ∧ request.planId ≠ "" ∧
    (isSafeInteger request.planRevision ∧ 0 < request.planRevision) ∧
    (request.snapshotHash ≠ "" ∧ (codeUnits request.snapshotHash).length ≤ 128) ∧
    request.quoteRef.valid ∧ request.reservationIdempotencyKey ≠ "" ∧
    request.predecessorRequestId.all (· ≠ "") ∧
    request.replacesReservationIdempotencyKey.all (· ≠ "") ∧
    host.isDatetime request.createdAt ∧ host.isDatetime request.holdExpiresAt ∧
    request.campaignPlanRef.all (·.valid) ∧
    request.workOrdinal.all (fun ordinal => isSafeInteger ordinal ∧ 0 < ordinal) ∧
    request.refined ∧ request.holdValid host

end AgentExecutionConfirmationRequest

variable (host : ConfirmationHost)

/-- `agentExecutionConfirmationRequestSchema.parse`. -/
def parseConfirmationRequest (request : AgentExecutionConfirmationRequest) :
    Except ConfirmationThrown AgentExecutionConfirmationRequest :=
  if request.trimmed.valid host then pure request.trimmed else throw .schema

/-- `planConfirmationDecisionSchema.parse`. -/
def parseConfirmationDecision (decision : PlanConfirmationDecision) :
    Except ConfirmationThrown PlanConfirmationDecision :=
  let parsed := { decision with
    decisionId := Text.trim decision.decisionId
    requestId := Text.trim decision.requestId
    actorId := Text.trim decision.actorId }
  if parsed.decisionId ≠ "" ∧ parsed.requestId ≠ "" ∧ parsed.actorId ≠ "" ∧
      host.isDatetime parsed.decidedAt then
    pure parsed
  else throw .schema

/-! ## The stores -/

/-- **The tables of a workspace credit transaction**; a service may be built without authorities. -/
structure Confirmations where
  requests : OrderedMap String StoredConfirmationRequest
  decisionsById : OrderedMap String PlanConfirmationDecision
  decisionsByRequest : OrderedMap String String
  ledger : MemoryCreditLedger
  authorities : Option (OrderedMap String PendingConfirmationAuthority)
  deriving DecidableEq

abbrev ConfirmationM := EStateM ConfirmationThrown Confirmations

/-- A call of the ledger, inside the transaction. -/
def ledgerCall {α : Type} (x : LedgerM α) : ConfirmationM α := fun s =>
  match x s.ledger with
  | .ok a ledger => .ok a { s with ledger }
  | .error thrown ledger => .error (.ledger thrown) { s with ledger }

namespace Confirmations

/-- The tables as constructed. -/
def empty (authorities : Option (OrderedMap String PendingConfirmationAuthority)) :
    Confirmations :=
  ⟨.empty, .empty, .empty, .empty, authorities⟩

def saveRequest (requestId : String) (stored : StoredConfirmationRequest) (s : Confirmations) :
    Confirmations :=
  { s with requests := s.requests.set requestId stored }

def getOwned (s : Confirmations) (workspaceId requestId : String) :
    Option StoredConfirmationRequest :=
  (s.requests.get? requestId).filter (·.request.workspaceId = workspaceId)

/-- `findSuccessorByPredecessor`. -/
def findSuccessor (s : Confirmations) (predecessorRequestId : String) :
    Option StoredConfirmationRequest :=
  s.requests.values.find? (·.request.predecessorRequestId = some predecessorRequestId)

def findCampaignWork (s : Confirmations) (workspaceId campaignPlanId : String)
    (workOrdinal : Int) : Option StoredConfirmationRequest :=
  s.requests.values.find? fun row => row.request.workspaceId = workspaceId ∧
    row.request.campaignPlanRef.map (·.id) = some campaignPlanId ∧
    row.request.workOrdinal = some workOrdinal ∧
    row.request.approvalScope = some .single_work

def getDecision (s : Confirmations) (requestId : String) : Option PlanConfirmationDecision :=
  (s.decisionsByRequest.get? requestId).bind s.decisionsById.get?

end Confirmations

open Confirmations

/-- The campaign's work a request is for, when it is for a single one. -/
def campaignWorkOf (request : AgentExecutionConfirmationRequest) : Option (String × Int) :=
  match request.approvalScope, request.campaignPlanRef, request.workOrdinal with
  | some .single_work, some campaignPlanRef, some workOrdinal =>
    some (campaignPlanRef.id, workOrdinal)
  | _, _, _ => none

/-- The other request a campaign's work already has. -/
def campaignTwin (s : Confirmations) (request : AgentExecutionConfirmationRequest) :
    Option StoredConfirmationRequest :=
  ((campaignWorkOf request).bind fun (campaignPlanId, workOrdinal) =>
    s.findCampaignWork request.workspaceId campaignPlanId workOrdinal).filter
      (·.request.requestId ≠ request.requestId)

/-- A new row: its reservation key is unique in the table. -/
def insertPending (stored : StoredConfirmationRequest) : ConfirmationM StoredConfirmationRequest := do
  let s ← get
  if s.requests.values.any fun row =>
      row.request.reservationIdempotencyKey = stored.request.reservationIdempotencyKey then
    throw (.database "duplicate key value violates unique constraint")
  set (s.saveRequest stored.request.requestId stored)
  return stored

def savePending (input : StoredConfirmationRequest) : ConfirmationM StoredConfirmationRequest := do
  let request ← check (parseConfirmationRequest host input.request)
  if request.status ≠ .pending then
    throw (.confirmation .INVALID_STATE "Only pending confirmation requests may be created.")
  let s ← get
  match s.requests.get? request.requestId with
  | some existing =>
    if existing.request = request ∧ existing.projection = input.projection then
      return existing
    else throw (.confirmation .IDEMPOTENCY_CONFLICT
      ("Confirmation request " ++ request.requestId ++ " already exists with different facts."))
  | none =>
    match request.predecessorRequestId.bind s.findSuccessor, campaignTwin s request with
    | some successor, _ =>
      throw (.confirmation .IDEMPOTENCY_CONFLICT
        ("Confirmation predecessor " ++ request.predecessorRequestId.getD "" ++
          " already has successor " ++ successor.request.requestId ++ "."))
    | none, some twin =>
      if twin.request.status = .pending ∧ twin.request.snapshotHash = request.snapshotHash ∧
          twin.request.reservationIdempotencyKey = request.reservationIdempotencyKey then
        return twin
      else throw (.confirmation .CAMPAIGN_WORK_ALREADY_OPEN
        ("Campaign work ordinal " ++ toString (request.workOrdinal.getD 0) ++
          " already has confirmation " ++ twin.request.requestId ++ "."))
    | none, none => insertPending ⟨request, input.projection⟩

/-- `markOwnedStatus`, which is asked to find the row pending. -/
def markOwnedStatus (workspaceId requestId : String) (status : ConfirmationStatus) :
    ConfirmationM Unit := do
  let s ← get
  match s.getOwned workspaceId requestId with
  | none => pure ()
  | some existing =>
    if existing.request.status ≠ .pending then
      throw (.confirmation .INVALID_STATE ("Confirmation request " ++ requestId ++ " is " ++
        existing.request.status.text ++ ", expected pending."))
    let request ← check (parseConfirmationRequest host { existing.request with status })
    set (s.saveRequest requestId { existing with request })

/-- `restoreOwnedPending`. -/
def restoreOwnedPending (workspaceId requestId : String) : ConfirmationM Unit := do
  let s ← get
  match (s.getOwned workspaceId requestId).filter (·.request.status = .decided) with
  | none => pure ()
  | some existing =>
    let request ← check (parseConfirmationRequest host { existing.request with status := .pending })
    set (s.saveRequest requestId { existing with request })

/-- The decision on a request is appended once, and never changes. -/
def append (decision : PlanConfirmationDecision) : ConfirmationM PlanConfirmationDecision := do
  let parsed ← check (parseConfirmationDecision host decision)
  let s ← get
  match s.decisionsById.get? parsed.decisionId with
  | some existingById =>
    if existingById = parsed then return existingById
    else throw (.confirmation .DECISION_IMMUTABLE
      ("PlanConfirmationDecision " ++ parsed.decisionId ++ " is immutable."))
  | none =>
    match s.decisionsByRequest.get? parsed.requestId with
    | some existingRequestDecision =>
      if s.decisionsById.get? existingRequestDecision = some parsed then return parsed
      else throw (.confirmation .DECISION_IMMUTABLE
        ("Request " ++ parsed.requestId ++ " already has an immutable decision."))
    | none =>
      set { s with
        decisionsById := s.decisionsById.set parsed.decisionId parsed
        decisionsByRequest := s.decisionsByRequest.set parsed.requestId parsed.decisionId }
      return parsed

/-! ### Authorities -/

/-- `putCurrent` of the authorities. -/
def putCurrent (input : PendingConfirmationAuthority) : ConfirmationM Unit := do
  let s ← get
  match s.authorities with
  | none => pure ()
  | some current =>
    match current.get? input.workflowId with
    | none => set { s with authorities := some (current.set input.workflowId input) }
    | some existing =>
      if existing.workspaceId ≠ input.workspaceId then
        throw (.confirmation .NOT_FOUND "Workflow was not found.")
      if input.planRevision < existing.planRevision ∨
          input.planRevision = existing.planRevision ∧
            input.snapshotHash ≠ existing.snapshotHash then
        -- the service answers the store's conflict in its own words
        throw (.confirmation .AUTHORITY_ADVANCED ("Execution plan for workflow " ++
          input.workflowId ++ " advanced before confirmation creation."))
      if existing.planRevision < input.planRevision then
        set { s with authorities := some (current.set input.workflowId input) }

end MeiyeAgent
