import MeiyeAgent.Generation.GenerationTables

/-!
# Generation/GenerationService — the operations on usage, jobs and attempts

Every operation runs under an idempotency key: a key that was used is answered from what it did,
anything else is one transaction.

* `appendUsageEvent`, `compensateCommittedUsage` — the product usage.
* `startGeneration`, `checkpointGenerationAttempt`, `checkpointProviderAttempt` — a job, and its
  attempts.
* `recordAttemptAcceptance`, `settleProviderOutcome`, `recordAssetReceipt`,
  `settleGenerationFailure` — what comes back of an attempt.
* `executeIdempotent`, `GenerationRepository.step` — a call under its key.
-/

namespace MeiyeAgent

open Effect GenerationTables

/-! ## Inputs -/

/-- Who calls: the workspace, and what its membership says of the caller. -/
structure GenerationContext where
  workspaceId : String
  userId : String
  correlationId : String
  worker : Bool
  owner : Bool
  deriving DecidableEq

structure AppendUsageEventInput where
  id : String
  resource : UsageResource
  action : UsageAction
  amount : Rat
  reservationId : Option String := none
  reason : String
  deriving DecidableEq

structure StartGenerationInput where
  jobId : String
  operation : UsageResource
  usageReservationId : String
  routeSnapshot : RouteFacts
  deriving DecidableEq

structure GenerationOpeningEntitlement where
  id : String
  amount : Rat
  reason : String
  deriving DecidableEq

/-- A checkpoint, without the opening entitlement: its identity. -/
structure CheckpointIdentity where
  jobId : String
  operation : UsageResource
  usageReservationId : String
  usageAmount : Rat
  routeSnapshot : RouteFacts
  attemptId : String
  deploymentId : String
  deriving DecidableEq

structure ProviderAttemptInput where
  id : String
  jobId : String
  deploymentId : String
  deriving DecidableEq

structure AttemptAcceptanceInput where
  attemptId : String
  acceptance : ProviderAcceptance
  providerTaskRef : Option String := none
  deriving DecidableEq

inductive ProviderOutcome
  | completed (asset : Option AssetReceipt)
  | retryable_rejection (reason : String)
  | failed (reason : String)
  | unknown (reason : String)
  deriving DecidableEq

structure ProviderOutcomeSettlement where
  attemptId : String
  acceptance : ProviderAcceptance
  providerTaskRef : Option String := none
  providerCost : ProviderCost
  result : Json
  outcome : ProviderOutcome

/-- A job, and why it failed or is compensated. -/
structure JobReason where
  jobId : String
  reason : String
  deriving DecidableEq

/-! ## Checks -/

def authorizeOwner (context : GenerationContext) : Except Thrown Unit :=
  if context.owner then pure ()
  else throw (.domain .NOT_FOUND "Workspace resource was not found.")

def authorizeGenerationLedgerAccess (context : GenerationContext) : Except Thrown Unit :=
  if context.worker then pure () else authorizeOwner context

def validateRouteSnapshot (facts : RouteFacts) : Except Thrown Unit :=
  if facts.allowedCandidates = [] then
    throw (invalidState "A route snapshot needs at least one candidate.")
  else if facts.dataClass ≠ .public ∧ facts.allowedCandidates.any (·.region ≠ .cn) then
    throw (invalidState "Sensitive generation data cannot use a foreign deployment.")
  else if facts.selectionMode = .fixed ∧
      facts.allowedCandidates.any (·.catalogModelId ≠ facts.requestedCatalogModelId) then
    throw (invalidState "A fixed route can only contain equivalent deployments.")
  else pure ()

def validateProviderCostAmount (cost : ProviderCost) : Except Thrown Unit :=
  if cost.billingStatus.getD .known = .known then
    if cost.amountMicros.all fun amount => ¬ amount.isInt ∨ amount < 0 then
      throw (invalidState "Known provider cost must be non-negative integer micros.")
    else pure ()
  else if cost.amountMicros.isSome then
    throw (invalidState
      "Externally billed or unknown provider cost must not fabricate an amount.")
  else pure ()

def ZERO_VALUE_USAGE_RESERVATION_PREFIX : String := "zero-value-usage:"

def isZeroValueUsageReservation (reservationId : String) : Bool :=
  Text.startsWith reservationId ZERO_VALUE_USAGE_RESERVATION_PREFIX

/-- `assertMonotonicProviderOutcome`. -/
def assertMonotonicProviderOutcome (job : GenerationJob) (outcome : ProviderOutcome) :
    Except Thrown Unit :=
  if job.status.isTerminal then
    throw (invalidState "A terminal generation job cannot accept another provider settlement.")
  else match job.status, outcome with
    | .unknown, .retryable_rejection _ | .unknown, .unknown _ => throw (invalidState
        "An unknown generation job can advance only to a terminal outcome.")
    | _, _ => pure ()

/-- `/^[a-f0-9]{64}$/i`. -/
def isSha256 (text : String) : Bool :=
  text.length = 64 ∧ text.toList.all fun c =>
    ('a' ≤ c ∧ c ≤ 'f') ∨ ('A' ≤ c ∧ c ≤ 'F') ∨ ('0' ≤ c ∧ c ≤ '9')

/-- The receipt is that of an object of the workspace. -/
def AssetReceipt.verified (workspaceId : String) (receipt : AssetReceipt) : Bool :=
  Text.startsWith receipt.objectKey (workspaceId ++ "/") ∧ isSha256 receipt.sha256 ∧
    0 < receipt.sizeBytes

def requireJob (jobId : String) : GenerationM GenerationJob := do
  let s ← get
  match s.generationJobs.get? jobId with
  | none => throw (.domain .NOT_FOUND "Generation job was not found.")
  | some job => return job

def requireSnapshot (snapshotId : String) : GenerationM RouteSnapshot := do
  let s ← get
  match s.routeSnapshots.get? snapshotId with
  | none => throw (.domain .NOT_FOUND "Route snapshot was not found.")
  | some snapshot => return snapshot

def requireAttempt (attemptId : String) : GenerationM ProviderAttempt := do
  let s ← get
  match s.attempts.get? attemptId with
  | none => throw (.domain .NOT_FOUND "Provider attempt was not found.")
  | some attempt => return attempt

/-! ## Usage -/

/-- The event of an input. -/
def AppendUsageEventInput.event (input : AppendUsageEventInput) (context : GenerationContext)
    (now : String) : UsageEvent where
  id := input.id
  resource := input.resource
  action := input.action
  amount := input.amount
  reservationId := input.reservationId
  reason := input.reason
  actorId := context.userId
  correlationId := context.correlationId
  createdAt := now

/-- A reservation is new, and there is enough left for it. -/
def checkReserve (events : List UsageEvent) (input : AppendUsageEventInput) :
    Except Thrown Unit := do
  if input.reservationId.getD "" = "" then throw (invalidState "A reservation id is required.")
  if events.any (·.reservationId = input.reservationId) then
    throw (invalidState "Reservation already exists.")
  if (projectUsage events).available < input.amount then
    throw (.domain .INSUFFICIENT_ENTITLEMENT "Insufficient product usage allowance.")

/-- A terminal event fits its reservation; the event that ended it before is answered again. -/
def checkTerminal (events : List UsageEvent) (input : AppendUsageEventInput) :
    Except Thrown (Option UsageEvent) := do
  if input.reservationId.getD "" = "" then throw (invalidState "A reservation id is required.")
  let reservationId := input.reservationId.getD ""
  match events.find? (·.isReserveOf reservationId) with
  | none => throw (invalidState "Reservation does not match the terminal event.")
  | some reservation =>
    if ¬ (if input.action = .commit then 0 ≤ input.amount ∧ input.amount ≤ reservation.amount
        else reservation.amount = input.amount) then
      throw (invalidState "Reservation does not match the terminal event.")
    match events.find? (·.isTerminalOf reservationId) with
    | none => return none
    | some existingTerminal =>
      if existingTerminal.action ≠ input.action then
        throw (invalidState "Reservation already has another terminal result.")
      return some existingTerminal

def appendUsageEvent (context : GenerationContext) (input : AppendUsageEventInput)
    (now : String) : GenerationM UsageEvent := do
  check (authorizeOwner context)
  if input.amount = 0 then
    throw (invalidState "Usage amount must be a finite non-zero number.")
  if input.action ≠ .adjust ∧ input.amount < 0 then
    throw (invalidState "Usage amount must be positive.")
  let s ← get
  let events := s.listUsageEvents input.resource
  if input.action = .reserve then check (checkReserve events input)
  let existing ← if input.action.isTerminal then check (checkTerminal events input) else pure none
  match existing with
  | some existingTerminal => return existingTerminal
  | none =>
    appendUsage (input.event context now)
    return input.event context now

/-- The event a job writes about its reservation. -/
def GenerationJob.usageEvent (job : GenerationJob) (context : GenerationContext) (id : String)
    (action : UsageAction) (amount : Rat) (reason now : String) : UsageEvent where
  id := id
  resource := job.operation
  action := action
  amount := amount
  reservationId := some job.usageReservationId
  reason := reason
  actorId := context.userId
  correlationId := context.correlationId
  createdAt := now

def UsageAction.text : UsageAction → String
  | .reserve => "reserve"
  | .commit => "commit"
  | .refund => "refund"
  | .expire => "expire"
  | .adjust => "adjust"
  | .compensate => "compensate"

def usageReservationNotFound : Thrown := invalidState "Usage reservation was not found."

/-- `settleUsageReservation`: a reservation is ended, unless it has ended so before. -/
def settleUsageReservation (context : GenerationContext) (job : GenerationJob)
    (action : UsageAction) (reason now : String) : GenerationM Unit := do
  let s ← get
  match s.reservationOf job.operation job.usageReservationId with
  | none =>
    if ¬ isZeroValueUsageReservation job.usageReservationId then throw usageReservationNotFound
  | some reservation =>
    match s.endOf job.operation job.usageReservationId with
    | some terminal =>
      if terminal.action ≠ action then
        throw (invalidState "Usage reservation already has another terminal result.")
    | none => appendUsage (job.usageEvent context ("job:" ++ job.id ++ ":" ++ action.text) action
        reservation.amount reason now)

/-- What a receipt and a failure do with the reservation, each in its own words. -/
def endReservation (context : GenerationContext) (job : GenerationJob) (action : UsageAction)
    (eventId reason now otherwise : String) : GenerationM Unit := do
  let s ← get
  let reservation := s.reservationOf job.operation job.usageReservationId
  if reservation.isNone ∧ ¬ isZeroValueUsageReservation job.usageReservationId then
    throw usageReservationNotFound
  match s.endOf job.operation job.usageReservationId, reservation with
  | some terminal, _ => if terminal.action ≠ action then throw (invalidState otherwise)
  | none, some reservation =>
    appendUsage (job.usageEvent context eventId action reservation.amount reason now)
  | none, none => pure ()

inductive CompensationKind
  | already_released
  | refund
  | compensate
  deriving DecidableEq, Repr

structure CompensationResult where
  kind : CompensationKind
  amount : Rat
  deriving DecidableEq

/-- A committed reservation is given back, once for a job and a reason. -/
def compensate (context : GenerationContext) (job : GenerationJob) (reservation : UsageEvent)
    (reason now : String) : GenerationM CompensationResult := do
  let compensateId := "job:" ++ job.id ++ ":compensate:" ++ reason
  let s ← get
  match (s.listUsageEvents job.operation).find? (·.id = compensateId) with
  | some existing => return ⟨.compensate, existing.amount⟩
  | none =>
    appendUsage (job.usageEvent context compensateId .compensate reservation.amount reason now)
    return ⟨.compensate, reservation.amount⟩

def compensateCommittedUsage (context : GenerationContext) (input : JobReason) (now : String) :
    GenerationM CompensationResult := do
  check (authorizeGenerationLedgerAccess context)
  let job ← requireJob input.jobId
  let s ← get
  match s.reservationOf job.operation job.usageReservationId with
  | none =>
    if isZeroValueUsageReservation job.usageReservationId then return ⟨.already_released, 0⟩
    else throw usageReservationNotFound
  | some reservation =>
    match s.endOf job.operation job.usageReservationId with
    | none =>
      appendUsage (job.usageEvent context ("job:" ++ job.id ++ ":refund") .refund
        reservation.amount input.reason now)
      return ⟨.refund, reservation.amount⟩
    | some terminal =>
      if terminal.action = .commit then compensate context job reservation input.reason now
      else return ⟨.already_released, 0⟩

/-! ## Jobs and attempts -/

/-- A job as it is created. -/
def newJob (context : GenerationContext) (jobId : String) (operation : UsageResource)
    (routeSnapshotId usageReservationId : String) (status : GenerationStatus) (now : String) :
    GenerationJob where
  id := jobId
  operation := operation
  routeSnapshotId := routeSnapshotId
  usageReservationId := usageReservationId
  status := status
  createdBy := context.userId
  correlationId := context.correlationId
  createdAt := now
  updatedAt := now

/-- An attempt as it is opened. -/
def newAttempt (id jobId : String) (ordinal : Nat) (deploymentId now : String) :
    ProviderAttempt where
  id := id
  jobId := jobId
  ordinal := ordinal
  deploymentId := deploymentId
  acceptance := .pending
  status := .pending
  createdAt := now
  updatedAt := now

def startGeneration (context : GenerationContext) (input : StartGenerationInput) (now : String) :
    GenerationM GenerationJob := do
  check (authorizeGenerationLedgerAccess context)
  check (validateRouteSnapshot input.routeSnapshot)
  let s ← get
  if (s.reservationOf input.operation input.usageReservationId).isNone ∨
      (s.endOf input.operation input.usageReservationId).isSome then
    throw (invalidState "An active usage reservation is required.")
  let job := newJob context input.jobId input.operation input.routeSnapshot.id
    input.usageReservationId .queued now
  insertRouteSnapshot { input.routeSnapshot with createdAt := now }
  insertGenerationJob job
  return job

/-- The first usage of a resource may open it. -/
def openEntitlement (context : GenerationContext) (operation : UsageResource)
    (opening : Option GenerationOpeningEntitlement) (now : String) : GenerationM Unit := do
  let s ← get
  match opening with
  | none => pure ()
  | some entitlement =>
    if s.listUsageEvents operation = [] ∧ 0 < entitlement.amount then
      if ¬ entitlement.amount.isInt then
        throw (invalidState "Opening entitlement must be an integer.")
      appendUsage {
        id := entitlement.id
        resource := operation
        action := .adjust
        amount := entitlement.amount
        reason := entitlement.reason
        actorId := context.userId
        correlationId := context.correlationId
        createdAt := now }

/-- The reservation of a checkpoint is there, or is made. -/
def reserveCheckpoint (context : GenerationContext) (input : CheckpointIdentity) (now : String) :
    GenerationM Unit := do
  let s ← get
  if (s.endOf input.operation input.usageReservationId).isSome then
    throw (invalidState "Generation reservation is already terminal.")
  match s.reservationOf input.operation input.usageReservationId with
  | some reservation =>
    if reservation.amount ≠ input.usageAmount then
      throw (invalidState "Generation reservation amount does not match.")
  | none =>
    if 0 < input.usageAmount then
      if (projectUsage (s.listUsageEvents input.operation)).available < input.usageAmount then
        throw (.domain .INSUFFICIENT_ENTITLEMENT "Insufficient product usage allowance.")
      appendUsage {
        id := "job:" ++ input.jobId ++ ":reserve"
        resource := input.operation
        action := .reserve
        amount := input.usageAmount
        reservationId := some input.usageReservationId
        reason := "generation_dispatch_checkpoint"
        actorId := context.userId
        correlationId := context.correlationId
        createdAt := now }

/-- The route of a checkpoint is the one frozen under its id, or is frozen now. -/
def freezeRoute (facts : RouteFacts) (now : String) : GenerationM Unit := do
  let s ← get
  let proposed : RouteSnapshot := { facts with createdAt := now }
  match s.routeSnapshots.get? facts.id with
  | some existing =>
    if ¬ sameFrozenRoute existing proposed then
      throw (invalidState "RouteSnapshot id conflicts with different frozen routing facts.")
  | none => insertRouteSnapshot proposed

def checkpointGenerationAttempt (context : GenerationContext) (input : CheckpointIdentity)
    (opening : Option GenerationOpeningEntitlement) (now : String) :
    GenerationM (GenerationJob × ProviderAttempt) := do
  check (authorizeGenerationLedgerAccess context)
  check (validateRouteSnapshot input.routeSnapshot)
  if ¬ input.usageAmount.isInt ∨ input.usageAmount < 0 then
    throw (invalidState "Generation usage amount must be a non-negative integer.")
  openEntitlement context input.operation opening now
  reserveCheckpoint context input now
  if ¬ input.routeSnapshot.contains input.deploymentId then
    throw (invalidState "Deployment is outside the frozen route.")
  freezeRoute input.routeSnapshot now
  let job := newJob context input.jobId input.operation input.routeSnapshot.id
    input.usageReservationId .running now
  let attempt := newAttempt input.attemptId input.jobId 1 input.deploymentId now
  insertGenerationJob job
  insertProviderAttempt attempt
  return (job, attempt)

/-- What the earlier attempts of a job say to a new one. -/
def checkPrevious (snapshot : RouteSnapshot) (attempts : List ProviderAttempt) :
    Except Thrown Unit := do
  if 2 ≤ attempts.length then throw (invalidState "Automatic attempt limit reached.")
  match attempts.getLast? with
  | none => pure ()
  | some previous =>
    if previous.acceptance ≠ .rejected_before_accept then
      throw (invalidState "Accepted or unknown work must be recovered, not replayed.")
    if ¬ snapshot.fallbackConsent then
      throw (invalidState "The frozen route does not authorize fallback.")

def checkpointProviderAttempt (context : GenerationContext) (input : ProviderAttemptInput)
    (now : String) : GenerationM ProviderAttempt := do
  check (authorizeGenerationLedgerAccess context)
  let job ← requireJob input.jobId
  if job.status.isTerminal then throw (invalidState "Generation job is terminal.")
  let snapshot ← requireSnapshot job.routeSnapshotId
  match snapshot.allowedCandidates.find? (·.deploymentId = input.deploymentId) with
  | none => throw (invalidState "Deployment is outside the frozen route.")
  | some candidate =>
    if snapshot.selectionMode = .fixed ∧
        candidate.catalogModelId ≠ snapshot.requestedCatalogModelId then
      throw (invalidState "A fixed model cannot cross CatalogModel.")
  let attempts := (← get).listProviderAttempts job.id
  check (checkPrevious snapshot attempts)
  let attempt := newAttempt input.id job.id (attempts.length + 1) input.deploymentId now
  insertProviderAttempt attempt
  updateGenerationJob { job with status := .running, updatedAt := now }
  return attempt

/-! ## What comes back -/

def acceptanceImmutable : Thrown :=
  invalidState "Provider acceptance evidence is immutable."

def recordAttemptAcceptance (context : GenerationContext) (input : AttemptAcceptanceInput)
    (now : String) : GenerationM ProviderAttempt := do
  check (authorizeGenerationLedgerAccess context)
  let attempt ← requireAttempt input.attemptId
  if attempt.acceptance ≠ .pending then
    if attempt.acceptance = input.acceptance ∧ attempt.providerTaskRef = input.providerTaskRef then
      return attempt
    else throw acceptanceImmutable
  else
    let updated := { attempt with
      acceptance := input.acceptance
      providerTaskRef := input.providerTaskRef
      status := if input.acceptance = .rejected_before_accept then .failed else .submitted
      updatedAt := now }
    updateProviderAttempt updated
    return updated

/-- A text that is given and not empty. -/
def givenText (value : Option String) : Option String := value.filter (· ≠ "")

/-- The evidence of an outcome goes with what is known of the attempt. -/
def checkEvidence (attempt : ProviderAttempt) (input : ProviderOutcomeSettlement) :
    Except Thrown Unit :=
  let taskReferenceConflicts := (givenText attempt.providerTaskRef).isSome ∧
    (givenText input.providerTaskRef).isSome ∧ attempt.providerTaskRef ≠ input.providerTaskRef
  let resolvesUnknownAcceptance := attempt.acceptance = .acceptance_unknown ∧
    input.acceptance ≠ .acceptance_unknown ∧ ¬ taskReferenceConflicts
  let repeatsAcceptanceEvidence := attempt.acceptance = input.acceptance ∧
    ¬ taskReferenceConflicts
  if attempt.acceptance ≠ .pending ∧ ¬ resolvesUnknownAcceptance ∧
      ¬ repeatsAcceptanceEvidence then
    throw acceptanceImmutable
  else pure ()

/-- The outcome goes with its evidence. -/
def checkOutcome (input : ProviderOutcomeSettlement) : Except Thrown Unit :=
  match input.outcome with
  | .completed _ =>
    if input.acceptance ≠ .accepted then
      throw (invalidState "Completed delivery requires accepted provider evidence.")
    else pure ()
  | .unknown _ =>
    if input.acceptance = .rejected_before_accept then
      throw (invalidState "A rejected request cannot have unknown delivery.")
    else pure ()
  | _ => pure ()

/-- The receipt of a delivery: media need one. -/
def deliverAsset (context : GenerationContext) (job : GenerationJob) (attempt : ProviderAttempt)
    (receipt : Option AssetReceipt) (now : String) : GenerationM Unit := do
  match receipt with
  | none =>
    if job.operation ≠ .copy then
      throw (invalidState "Media delivery requires an owned asset receipt.")
  | some receipt =>
    if receipt.jobId ≠ job.id ∨ receipt.attemptId ≠ attempt.id ∨
        ¬ receipt.verified context.workspaceId then
      throw (invalidState "A verified workspace-owned asset receipt is required.")
    insertOwnedAsset { receipt with createdAt := now }

namespace ProviderOutcome

/-- The status of the attempt after the outcome. -/
def attemptStatus : ProviderOutcome → AttemptStatus
  | .completed _ => .completed
  | .failed _ | .retryable_rejection _ => .failed
  | .unknown _ => .submitted

/-- The status of the job after the outcome. -/
def jobStatus : ProviderOutcome → GenerationStatus
  | .completed _ => .completed
  | .failed _ => .failed
  | .retryable_rejection _ => .running
  | .unknown _ => .unknown

/-- What becomes of the reservation, and why. -/
def settlement : ProviderOutcome → Option (UsageAction × String)
  | .completed asset => some
      (.commit, if asset.isSome then "owned_asset_delivered" else "copy_output_delivered")
  | .failed reason => some (.refund, reason)
  | .retryable_rejection _ | .unknown _ => none

end ProviderOutcome

/-- What is delivered with the outcome. -/
def deliverOutcome (context : GenerationContext) (job : GenerationJob) (attempt : ProviderAttempt)
    (outcome : ProviderOutcome) (now : String) : GenerationM Unit :=
  match outcome with
  | .completed asset => deliverAsset context job attempt asset now
  | _ => pure ()

/-- What becomes of the reservation with the outcome. -/
def settleOutcome (context : GenerationContext) (job : GenerationJob) (outcome : ProviderOutcome)
    (now : String) : GenerationM Unit :=
  match outcome.settlement with
  | none => pure ()
  | some (action, reason) => settleUsageReservation context job action reason now

namespace ProviderOutcomeSettlement

/-- The attempt with its outcome. -/
def updatedAttempt (input : ProviderOutcomeSettlement) (attempt : ProviderAttempt) (now : String) :
    ProviderAttempt :=
  { attempt with
    acceptance := input.acceptance
    providerTaskRef := (givenText input.providerTaskRef).or attempt.providerTaskRef
    status := input.outcome.attemptStatus
    updatedAt := now }

/-- The job with its outcome. -/
def updatedJob (input : ProviderOutcomeSettlement) (job : GenerationJob) (now : String) :
    GenerationJob :=
  { job with
    status := input.outcome.jobStatus
    result := some input.result
    updatedAt := now }

end ProviderOutcomeSettlement

def settleProviderOutcome (context : GenerationContext) (input : ProviderOutcomeSettlement)
    (now : String) : GenerationM (GenerationJob × ProviderAttempt) := do
  check (authorizeGenerationLedgerAccess context)
  let attempt ← requireAttempt input.attemptId
  let job ← requireJob attempt.jobId
  if (input.result.field? "jobId").bind (·.text?) ≠ some job.id then
    throw (invalidState "Generation result does not belong to the checkpointed job.")
  check (assertMonotonicProviderOutcome job input.outcome)
  check (checkEvidence attempt input)
  check (validateProviderCostAmount input.providerCost)
  check (checkOutcome input)
  storeProviderCost input.providerCost
  deliverOutcome context job attempt input.outcome now
  updateProviderAttempt (input.updatedAttempt attempt now)
  settleOutcome context job input.outcome now
  updateGenerationJob (input.updatedJob job now)
  return (input.updatedJob job now, input.updatedAttempt attempt now)

def recordAssetReceipt (context : GenerationContext) (input : AssetReceipt) (now : String) :
    GenerationM OwnedAsset := do
  check (authorizeGenerationLedgerAccess context)
  let job ← requireJob input.jobId
  let s ← get
  match (s.attempts.get? input.attemptId).filter fun attempt =>
      attempt.jobId = job.id ∧ attempt.acceptance = .accepted with
  | none => throw (invalidState "An accepted attempt is required for asset delivery.")
  | some attempt =>
    if ¬ input.verified context.workspaceId then
      throw (invalidState "A verified workspace-owned asset receipt is required.")
    insertOwnedAsset { input with createdAt := now }
    updateProviderAttempt { attempt with status := .completed, updatedAt := now }
    updateGenerationJob { job with status := .completed, updatedAt := now }
    endReservation context job .commit ("asset:" ++ input.id ++ ":commit") "owned_asset_delivered"
      now "Usage reservation was already released."
    return { input with createdAt := now }

def settleGenerationFailure (context : GenerationContext) (input : JobReason) (now : String) :
    GenerationM GenerationJob := do
  check (authorizeGenerationLedgerAccess context)
  let job ← requireJob input.jobId
  if job.status = .completed ∨ job.status = .cancelled then
    throw (invalidState "A delivered or cancelled job cannot fail.")
  endReservation context job .refund ("job:" ++ job.id ++ ":refund") input.reason now
    "Usage reservation already has another terminal result."
  let failed := { job with status := .failed, updatedAt := now }
  updateGenerationJob failed
  return failed

/-! ## Commands -/

inductive GenerationOperation
  | appendUsageEvent (input : AppendUsageEventInput)
  | startGeneration (input : StartGenerationInput)
  | checkpointGenerationAttempt (input : CheckpointIdentity)
      (opening : Option GenerationOpeningEntitlement)
  | checkpointProviderAttempt (input : ProviderAttemptInput)
  | recordAttemptAcceptance (input : AttemptAcceptanceInput)
  | settleProviderOutcome (input : ProviderOutcomeSettlement)
  | recordAssetReceipt (input : AssetReceipt)
  | settleGenerationFailure (input : JobReason)
  | compensateCommittedUsage (input : JobReason)

/-- What a command is told apart by: its input alone, so a failure and a compensation of one job for
one reason are the same payload. -/
inductive GenerationPayload
  | usageEvent (input : AppendUsageEventInput)
  | start (input : StartGenerationInput)
  | checkpoint (input : CheckpointIdentity)
  | attempt (input : ProviderAttemptInput)
  | acceptance (input : AttemptAcceptanceInput)
  | outcome (input : ProviderOutcomeSettlement)
  | receipt (input : AssetReceipt)
  | jobReason (input : JobReason)

inductive GenerationValue
  | event (value : UsageEvent)
  | job (value : GenerationJob)
  | attempt (value : ProviderAttempt)
  | both (job : GenerationJob) (attempt : ProviderAttempt)
  | asset (value : OwnedAsset)
  | compensation (value : CompensationResult)

structure GenerationCommand where
  context : GenerationContext
  idempotencyKey : String
  now : String
  operation : GenerationOperation

def GenerationOperation.payload : GenerationOperation → GenerationPayload
  | .appendUsageEvent input => .usageEvent input
  | .startGeneration input => .start input
  | .checkpointGenerationAttempt input _ => .checkpoint input
  | .checkpointProviderAttempt input => .attempt input
  | .recordAttemptAcceptance input => .acceptance input
  | .settleProviderOutcome input => .outcome input
  | .recordAssetReceipt input => .receipt input
  | .settleGenerationFailure input => .jobReason input
  | .compensateCommittedUsage input => .jobReason input

/-- The transaction of a command. -/
def GenerationCommand.action (command : GenerationCommand) : GenerationM GenerationValue :=
  match command.operation with
  | .appendUsageEvent input => .event <$> appendUsageEvent command.context input command.now
  | .startGeneration input => .job <$> startGeneration command.context input command.now
  | .checkpointGenerationAttempt input opening => (fun value => .both value.1 value.2) <$>
      checkpointGenerationAttempt command.context input opening command.now
  | .checkpointProviderAttempt input =>
    .attempt <$> checkpointProviderAttempt command.context input command.now
  | .recordAttemptAcceptance input =>
    .attempt <$> recordAttemptAcceptance command.context input command.now
  | .settleProviderOutcome input => (fun value => .both value.1 value.2) <$>
      settleProviderOutcome command.context input command.now
  | .recordAssetReceipt input => .asset <$> recordAssetReceipt command.context input command.now
  | .settleGenerationFailure input =>
    .job <$> settleGenerationFailure command.context input command.now
  | .compensateCommittedUsage input =>
    .compensation <$> compensateCommittedUsage command.context input command.now

/-- The tables, and what each key was answered. -/
structure GenerationRepository where
  tables : GenerationTables
  commandResults : OrderedMap String (String × GenerationValue)

namespace GenerationRepository

/-- The repository as constructed. -/
def empty : GenerationRepository := ⟨.empty, .empty⟩

/-- `executeIdempotent`: the value, and whether it is a replay. -/
def executeIdempotent (idempotencyKey payloadHash : String)
    (action : GenerationM GenerationValue) :
    EStateM Thrown GenerationRepository (GenerationValue × Bool) := do
  let repository ← get
  match repository.commandResults.get? idempotencyKey with
  | some existing =>
    if existing.1 ≠ payloadHash then
      throw (.domain .IDEMPOTENCY_CONFLICT
        "Idempotency key was reused with a different payload.")
    return (existing.2, true)
  | none =>
    let value ← transaction
      (zoom tables (fun repository tables => { repository with tables }) action)
    modify fun repository => { repository with
      commandResults := repository.commandResults.set idempotencyKey (payloadHash, value) }
    return (value, false)

/-- The repository after a command; `payloadHash` is the digest of its payload. -/
def step (payloadHash : GenerationPayload → String) (repository : GenerationRepository)
    (command : GenerationCommand) : GenerationRepository :=
  final (executeIdempotent command.idempotencyKey (payloadHash command.operation.payload)
    command.action) repository

end GenerationRepository

end MeiyeAgent
