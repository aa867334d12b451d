import MeiyeAgent.AgentSession.Confirmations

/-!
# AgentSession/ConfirmationService — creating, deciding and expiring a confirmation

Each operation is one workspace credit transaction: it reads, moves the credits and writes the row,
and when it throws nothing of it stays.

* `createRequest` — the balance is checked, the credits are held, the row is written; a repriced
  successor gives its predecessor's hold back first.
* `completeDecision` — the decision is appended; a rejection gives the hold back, and a request
  whose hold has run out expires instead.
* `completeExpiry`, `reconcileDecided` — what the sweeper does to one request.
* `step` — the tables after a call of a run.
-/

namespace MeiyeAgent

open Effect Table Confirmations

variable (host : ConfirmationHost)

/-! ## Inputs and results -/

/-- What the caller brings along: the hook that runs in the transaction, and the ledger's own
replacement of a product reservation.  Each answers, or throws. -/
structure ConfirmationHooks where
  afterPendingPersisted : Option (Except ConfirmationThrown Unit) := none
  replaceProductReservation : Option (Except ConfirmationThrown Unit) := none
  deriving DecidableEq

structure CreateExecutionConfirmationInput where
  workflowId : Option String := none
  pendingAuthority : Option PendingConfirmationAuthority := none
  requestId : String
  workspaceId : String
  planId : String
  planRevision : Int
  snapshotHash : String
  quoteRef : AgentRevisionRef
  reservationIdempotencyKey : String
  predecessorRequestId : Option String := none
  replacesReservationIdempotencyKey : Option String := none
  billingTaskId : Option String := none
  createdAt : String
  holdExpiresAt : String
  actorId : String
  creditCost : Int
  failureRefundsCredits : Bool
  rightsSummary : Option String := none
  factSummary : Option String := none
  campaignPlanRef : Option AgentRevisionRef := none
  workOrdinal : Option Int := none
  approvalScope : Option ConfirmationApprovalScope := none
  hooks : ConfirmationHooks := {}
  deriving DecidableEq

structure DecideExecutionConfirmationInput where
  decisionId : String
  requestId : String
  workspaceId : String
  actorId : String
  decision : ConfirmationDecision
  deriving DecidableEq, Repr

structure ExpireExecutionConfirmationInput where
  requestId : String
  workspaceId : String
  actorId : Option String := none
  now : String
  deriving DecidableEq, Repr

/-- The card of a request is projected from these. -/
structure CreateExecutionConfirmationResult where
  stored : StoredConfirmationRequest
  availableCredits : Int
  reservedCredits : Int
  deriving DecidableEq

structure DecideExecutionConfirmationResult where
  decision : PlanConfirmationDecision
  request : AgentExecutionConfirmationRequest
  merchantMessage : Option String
  refundedCredits : Int
  deriving DecidableEq, Repr

structure ExpireExecutionConfirmationResult where
  request : AgentExecutionConfirmationRequest
  merchantMessage : String
  refundedCredits : Int
  deriving DecidableEq, Repr

def projectRejectRefundMessage (reservedCredits : Int) : String :=
  "已拒绝执行，预留的 " ++ toString (max 0 reservedCredits) ++ " 分已全额退回"

def projectHoldExpiredMessage (reservedCredits : Int) : String :=
  if ¬ isSafeInteger reservedCredits ∨ reservedCredits ≤ 0 then
    "超时未选择，本次任务已取消，积分已退回"
  else "超时未确认，本次任务已取消，预留的 " ++ toString reservedCredits ++ " 分已退回"

/-! ## Creating -/

namespace CreateExecutionConfirmationInput

def requiresReserve (input : CreateExecutionConfirmationInput) : Bool :=
  input.approvalScope ≠ some .plan_only ∧ isSafeInteger input.creditCost ∧ 0 < input.creditCost

/-- A text that is given and not empty. -/
def given (value : Option String) : Option String := value.filter (· ≠ "")

/-- The request before its schema has seen it. -/
def request (input : CreateExecutionConfirmationInput) : AgentExecutionConfirmationRequest where
  requestId := input.requestId
  workspaceId := input.workspaceId
  planId := input.planId
  planRevision := input.planRevision
  snapshotHash := input.snapshotHash
  quoteRef := input.quoteRef
  reservationIdempotencyKey := input.reservationIdempotencyKey
  predecessorRequestId := given input.predecessorRequestId
  replacesReservationIdempotencyKey := given input.replacesReservationIdempotencyKey
  createdAt := input.createdAt
  holdExpiresAt := input.holdExpiresAt
  campaignPlanRef := input.campaignPlanRef
  workOrdinal := input.workOrdinal
  approvalScope := input.approvalScope

/-- `value?.trim() || null`. -/
def summary (value : Option String) : Option String := given (value.map Text.trim)

def projection (input : CreateExecutionConfirmationInput) : ConfirmationRequestProjectionFacts where
  reservedCredits := if input.requiresReserve then input.creditCost else 0
  failureRefundsCredits := input.failureRefundsCredits
  rightsSummary := summary input.rightsSummary
  factSummary := summary input.factSummary

/-- The predecessor, and the hold it leaves, when both are named. -/
def replaced (input : CreateExecutionConfirmationInput) : Option (String × String) :=
  match given input.predecessorRequestId, given input.replacesReservationIdempotencyKey with
  | some predecessor, some reservation => some (predecessor, reservation)
  | _, _ => none

def correlationId (input : CreateExecutionConfirmationInput) : String :=
  "confirmation:" ++ input.requestId

end CreateExecutionConfirmationInput

/-- The frozen plan says what the authority says. -/
def PendingConfirmationAuthority.isOf (authority : PendingConfirmationAuthority)
    (input : CreateExecutionConfirmationInput) : Bool :=
  authority.planId = input.planId ∧ authority.planRevision = input.planRevision ∧
    authority.snapshotHash = input.snapshotHash ∧ authority.quoteRef = input.quoteRef

def authorityAdvanced (workflowId : String) : ConfirmationThrown :=
  .confirmation .AUTHORITY_ADVANCED
    ("Execution plan for workflow " ++ workflowId ++ " advanced before confirmation creation.")

/-- The authority brought along is written. -/
def putAuthority (input : CreateExecutionConfirmationInput) : ConfirmationM Unit := do
  match input.pendingAuthority with
  | none => pure ()
  | some authority =>
    if input.workflowId.getD "" = "" ∨ some authority.workflowId ≠ input.workflowId ∨
        authority.workspaceId ≠ input.workspaceId ∨ ¬ authority.isOf input then
      throw (.confirmation .INVALID_STATE
        "Pending confirmation authority does not match the request facts.")
    putCurrent authority

/-- The workflow's current authority is that of the request. -/
def checkAuthority (input : CreateExecutionConfirmationInput) : ConfirmationM Unit := do
  let s ← get
  match s.authorities with
  | none => pure ()
  | some current =>
    let workflowId := input.workflowId.getD ""
    if workflowId = "" then
      throw (.confirmation .INVALID_STATE
        "Confirmation authority validation requires a workflowId.")
    match (current.get? workflowId).filter (·.workspaceId = input.workspaceId) with
    | none => throw (.confirmation .NOT_FOUND
        ("Execution plan for workflow " ++ workflowId ++ " was not found."))
    | some authority => if ¬ authority.isOf input then throw (authorityAdvanced workflowId)

def requestNotFound (requestId : String) : ConfirmationThrown :=
  .confirmation .NOT_FOUND ("Confirmation request " ++ requestId ++ " was not found.")

/-- The caller's hook, when there is one. -/
def runHook (hook : Option (Except ConfirmationThrown Unit)) : ConfirmationM Unit :=
  match hook with
  | none => pure ()
  | some answer => check answer

/-- What is answered about a stored request. -/
def answerStored (input : CreateExecutionConfirmationInput) (stored : StoredConfirmationRequest) :
    ConfirmationM CreateExecutionConfirmationResult := do
  runHook input.hooks.afterPendingPersisted
  let s ← get
  let balance := s.ledger.project host.toHost input.workspaceId input.createdAt
  return {
    stored
    availableCredits := balance.availableCredits
    reservedCredits := stored.projection.reservedCredits }

/-- The request is there already: the same facts are answered, while it is open. -/
def reenter (input : CreateExecutionConfirmationInput) (request : AgentExecutionConfirmationRequest)
    (existing : StoredConfirmationRequest) : ConfirmationM CreateExecutionConfirmationResult := do
  if { existing.request with status := .pending } ≠ request ∨
      existing.projection ≠ input.projection then
    throw (.confirmation .IDEMPOTENCY_CONFLICT
      ("Confirmation request " ++ input.requestId ++ " already exists with different facts."))
  let s ← get
  if existing.request.status ≠ .pending ∧ ¬ (existing.request.status = .decided ∧
      (s.getDecision input.requestId).map (·.decision) = some .confirmed) then
    throw (.confirmation .TERMINAL_CONFIRMATION_ATTEMPT
      ("Confirmation request " ++ input.requestId ++ " is terminal and requires a successor."))
  answerStored host input existing

/-- A campaign's work has no other request. -/
def checkCampaignWork (input : CreateExecutionConfirmationInput) : ConfirmationM Unit := do
  let s ← get
  match campaignTwin s input.request with
  | none => pure ()
  | some prior => throw (.confirmation .CAMPAIGN_WORK_ALREADY_OPEN
      ("Campaign work ordinal " ++ toString (input.workOrdinal.getD 0) ++
        " already has confirmation " ++ prior.request.requestId ++ "."))

/-- The predecessor is an exact confirmed hold, and has no successor yet. -/
def checkPredecessor (input : CreateExecutionConfirmationInput) (predecessorId reservation : String) :
    ConfirmationM StoredConfirmationRequest := do
  let s ← get
  match (s.getOwned input.workspaceId predecessorId).filter fun predecessor =>
      predecessor.request.status = .decided ∧
        (s.getDecision predecessorId).map (·.decision) = some .confirmed ∧
        predecessor.request.planId = input.planId ∧
        predecessor.request.planRevision < input.planRevision ∧
        predecessor.request.quoteRef.id = input.quoteRef.id ∧
        predecessor.request.reservationIdempotencyKey = reservation with
  | none => throw (.confirmation .INVALID_STATE
      ("Confirmation predecessor " ++ predecessorId ++ " is not an exact confirmed hold."))
  | some predecessor =>
    match s.findSuccessor predecessorId with
    | some successor => throw (.confirmation .IDEMPOTENCY_CONFLICT
        ("Confirmation predecessor " ++ predecessorId ++ " already has successor " ++
          successor.request.requestId ++ "."))
    | none => return predecessor

/-- The credits a replaced hold sets free. -/
def replacedCredits (input : CreateExecutionConfirmationInput) : ConfirmationM Int :=
  match input.replaced with
  | none => pure 0
  | some (predecessorId, reservation) => do
    let predecessor ← checkPredecessor input predecessorId reservation
    return predecessor.projection.reservedCredits

/-- The product reservation follows the price. -/
def replaceProductReservation (input : CreateExecutionConfirmationInput) : ConfirmationM Unit :=
  if input.replaced.isSome ∧ (CreateExecutionConfirmationInput.given input.billingTaskId).isSome then
    match input.hooks.replaceProductReservation with
    | none => throw (.confirmation .INVALID_STATE
        "Product reservation replacement is unavailable for repricing.")
    | some answer => check answer
  else pure ()

/-- The replaced hold is given back. -/
def releaseReplaced (input : CreateExecutionConfirmationInput) : ConfirmationM Unit :=
  match input.replaced with
  | none => pure ()
  | some (_, reservation) => do
    let _ ← ledgerCall (refundUsageOperation host.toHost {
      workspaceId := input.workspaceId
      usageOperationId := reservation
      refundOperationId := "confirmation-reprice:" ++ input.requestId
      credits := none
      actorId := input.actorId
      correlationId := input.correlationId
      createdAt := input.createdAt })

/-- The credits are held: those of the predecessor count as free. -/
def reserve (input : CreateExecutionConfirmationInput) : ConfirmationM Unit := do
  let s ← get
  let balance := s.ledger.project host.toHost input.workspaceId input.createdAt
  let replaced ← replacedCredits input
  if balance.availableCredits + replaced < input.creditCost then
    throw (.confirmation .INSUFFICIENT_CREDITS ("Insufficient credits: need " ++
      toString input.creditCost ++ ", available " ++
        toString (balance.availableCredits + replaced) ++ "."))
  replaceProductReservation input
  releaseReplaced host input
  let _ ← ledgerCall (consume host.toHost {
    workspaceId := input.workspaceId
    credits := input.creditCost
    transactionId := input.reservationIdempotencyKey
    actorId := input.actorId
    correlationId := input.correlationId
    createdAt := input.createdAt })

/-- A request that is not there yet: the credits are held and the row is written. -/
def admitRequest (input : CreateExecutionConfirmationInput)
    (request : AgentExecutionConfirmationRequest) : ConfirmationM CreateExecutionConfirmationResult := do
  let s ← get
  if (s.requests.get? input.requestId).isSome then throw (requestNotFound input.requestId)
  checkCampaignWork input
  if input.requiresReserve then reserve host input
  let stored ← savePending host ⟨request, input.projection⟩
  answerStored host input stored

def createRequest (input : CreateExecutionConfirmationInput) :
    ConfirmationM CreateExecutionConfirmationResult := do
  if input.approvalScope ≠ some .plan_only ∧
      (¬ isSafeInteger input.creditCost ∨ input.creditCost ≤ 0) then
    throw (.confirmation .INVALID_STATE
      "Paid confirmation requires a positive creditCost from the billing domain.")
  let request ← check (parseConfirmationRequest host input.request)
  transaction do
    putAuthority input
    checkAuthority input
    let s ← get
    match s.getOwned input.workspaceId input.requestId with
    | some existing => reenter host input request existing
    | none => admitRequest host input request

/-! ## Deciding and expiring -/

/-- The hold is given back; the credits of lots that have expired meanwhile are not counted. -/
def refundHold (stored : StoredConfirmationRequest) (actorId createdAt : String) :
    ConfirmationM Int := do
  if stored.projection.reservedCredits ≤ 0 then return 0
  let refunds ← ledgerCall (refundUsageOperation host.toHost {
    workspaceId := stored.request.workspaceId
    usageOperationId := stored.request.reservationIdempotencyKey
    refundOperationId := "confirmation-refund:" ++ stored.request.requestId
    credits := none
    actorId
    correlationId := "confirmation:" ++ stored.request.requestId
    createdAt })
  return tally (·.credits) (refunds.filter (·.credited))

inductive DecisionOutcome
  | decided (value : DecideExecutionConfirmationResult)
  | expired
  deriving DecidableEq, Repr

namespace DecideExecutionConfirmationInput

/-- The decision before its schema has seen it. -/
def candidate (input : DecideExecutionConfirmationInput) (decidedAt : String) :
    PlanConfirmationDecision :=
  ⟨input.decisionId, input.requestId, input.actorId, input.decision, decidedAt⟩

end DecideExecutionConfirmationInput

/-- The decision the caller made before, if it made this one. -/
def priorDecision (input : DecideExecutionConfirmationInput) (candidate : PlanConfirmationDecision) :
    ConfirmationM (Option PlanConfirmationDecision) := do
  let s ← get
  let prior := s.decisionsById.get? input.decisionId
  if prior.any fun prior => prior.requestId ≠ candidate.requestId ∨
      prior.actorId ≠ candidate.actorId ∨ prior.decision ≠ candidate.decision then
    throw (.confirmation .DECISION_IMMUTABLE
      ("PlanConfirmationDecision " ++ input.decisionId ++ " is immutable."))
  return prior

/-- The decision is appended, and a pending request marked with it. -/
def appendOpen (input : DecideExecutionConfirmationInput) (candidate : PlanConfirmationDecision)
    (stored : StoredConfirmationRequest) : ConfirmationM PlanConfirmationDecision := do
  let prior ← priorDecision input candidate
  let appended ← append host (prior.getD candidate)
  if stored.request.status = .pending then
    markOwnedStatus host input.workspaceId input.requestId .decided
  return appended

/-- A request that is not expired is decided. -/
def decideOpen (input : DecideExecutionConfirmationInput) (serverNow : String)
    (stored : StoredConfirmationRequest) : ConfirmationM DecideExecutionConfirmationResult := do
  let candidate ← check (parseConfirmationDecision host (input.candidate serverNow))
  let appended ← appendOpen host input candidate stored
  let refundedCredits ←
    match appended.decision with
    | .confirmed => pure 0
    | .rejected => refundHold host stored input.actorId appended.decidedAt
  let updated := (← get).getOwned input.workspaceId input.requestId
  return {
    decision := appended
    request := (updated.map (·.request)).getD { stored.request with status := .decided }
    merchantMessage :=
      match appended.decision with
      | .confirmed => none
      | .rejected => some (projectRejectRefundMessage refundedCredits)
    refundedCredits }

/-- The hold has run out at the instant. -/
def holdRunOut (now : String) (stored : StoredConfirmationRequest) : Bool :=
  Num.le (host.dateParse stored.request.holdExpiresAt) (host.dateParse now)

def completeDecision (input : DecideExecutionConfirmationInput) (now : TimeValue) :
    ConfirmationM DecisionOutcome := do
  let s ← get
  match s.getOwned input.workspaceId input.requestId with
  | none => throw (requestNotFound input.requestId)
  | some stored =>
    if stored.request.status = .expired then return .expired
    let serverNow := isoText now
    if stored.request.status = .pending ∧ holdRunOut host serverNow stored then
      let _ ← refundHold host stored "system" serverNow
      markOwnedStatus host input.workspaceId input.requestId .expired
      return .expired
    return .decided (← decideOpen host input serverNow stored)

/-- The transaction of a decision commits before an expired request is answered with an error. -/
def commitDecisionForWorkspace (input : DecideExecutionConfirmationInput) (now : TimeValue) :
    ConfirmationM DecideExecutionConfirmationResult := do
  match ← transaction (completeDecision host input now) with
  | .expired => throw (.confirmation .INVALID_STATE
      ("Confirmation request " ++ input.requestId ++ " already expired."))
  | .decided value => return value

def completeExpiry (input : ExpireExecutionConfirmationInput) :
    ConfirmationM ExpireExecutionConfirmationResult := do
  let s ← get
  match s.getOwned input.workspaceId input.requestId with
  | none => throw (requestNotFound input.requestId)
  | some stored =>
    if stored.request.status = .decided then
      throw (.confirmation .INVALID_STATE
        ("Confirmation request " ++ input.requestId ++ " already decided; cannot expire."))
    if stored.request.status ≠ .expired ∧
        Num.gt (host.dateParse stored.request.holdExpiresAt) (host.dateParse input.now) then
      throw (.confirmation .HOLD_NOT_EXPIRED
        ("Confirmation request " ++ input.requestId ++ " hold has not expired yet."))
    let refundedCredits ← refundHold host stored (input.actorId.getD "system") input.now
    if stored.request.status = .pending then
      markOwnedStatus host input.workspaceId input.requestId .expired
    let updated := (← get).getOwned input.workspaceId input.requestId
    return {
      request := (updated.map (·.request)).getD { stored.request with status := .expired }
      merchantMessage := projectHoldExpiredMessage refundedCredits
      refundedCredits }

def expireForWorkspace (input : ExpireExecutionConfirmationInput) :
    ConfirmationM ExpireExecutionConfirmationResult :=
  transaction (completeExpiry host input)

/-- What `reconcileDecidedWithoutDecision` does to one candidate. -/
def reconcileDecided (workspaceId requestId : String) : ConfirmationM Unit :=
  transaction do
    let s ← get
    match (s.getOwned workspaceId requestId).filter (·.request.status = .decided) with
    | none => pure ()
    | some _ =>
      if (s.getDecision requestId).isSome then pure ()
      else restoreOwnedPending host workspaceId requestId

/-! ## Runs -/

/-- What else moves the ledger: lots are granted, and expire. -/
inductive CreditUpkeep
  | grant (input : GrantCreditsInput)
  | expireLots (input : ExpireLotsInput)
  | expireSubscriptionLots (input : ExpireSubscriptionLotsInput)
  deriving DecidableEq

/-- The call of the ledger. -/
def CreditUpkeep.call : CreditUpkeep → LedgerCall
  | .grant input => .grant input
  | .expireLots input => .expireLots input
  | .expireSubscriptionLots input => .expireSubscriptionLots input

/-- **What happens**: a call of the service, or upkeep of the ledger. -/
inductive ConfirmationCall
  | createRequest (input : CreateExecutionConfirmationInput)
  | decide (input : DecideExecutionConfirmationInput) (now : TimeValue)
  | expire (input : ExpireExecutionConfirmationInput)
  | reconcile (workspaceId requestId : String)
  | upkeep (upkeep : CreditUpkeep)

namespace Confirmations

/-- The tables after a call. -/
def step (s : Confirmations) : ConfirmationCall → Confirmations
  | .createRequest input => final (createRequest host input) s
  | .decide input now => final (commitDecisionForWorkspace host input now) s
  | .expire input => final (expireForWorkspace host input) s
  | .reconcile workspaceId requestId => final (reconcileDecided host workspaceId requestId) s
  | .upkeep upkeep => { s with ledger := upkeep.call.step host.toHost s.ledger }

end Confirmations

end MeiyeAgent
