import MeiyeAgent.Foundation.Json
import MeiyeAgent.Foundation.Runtime
import MeiyeAgent.Machinery.OrderedMap
import Mathlib.Algebra.BigOperators.Group.List.Basic
import Mathlib.Data.Rat.Lemmas

/-!
# Generation/GenerationTables — usage events, jobs and provider attempts

The tables of one workspace: every read and every write of the service names the workspace.

* `UsageEvent`, `projectUsage` — the product usage is a list of events; what is reserved, committed
  and available is computed from it each time.
* `GenerationJob`, `ProviderAttempt`, `RouteSnapshot` — a job runs over attempts, on a route that
  was frozen with it.
* `GenerationTables` — the tables, with the inserts and the updates of the store.

An amount is a finite number, which is a rational here.
-/

namespace MeiyeAgent

open Effect

/-! ## Usage events -/

inductive UsageResource
  | copy
  | image
  | video
  | audio
  deriving DecidableEq, Repr

inductive UsageAction
  | reserve
  | commit
  | refund
  | expire
  | adjust
  | compensate
  deriving DecidableEq, Repr

/-- The action ends a reservation. -/
def UsageAction.isTerminal : UsageAction → Bool
  | .commit | .refund | .expire => true
  | .reserve | .adjust | .compensate => false

structure UsageEvent where
  id : String
  resource : UsageResource
  action : UsageAction
  amount : Rat
  reservationId : Option String := none
  reason : String
  actorId : String
  correlationId : String
  createdAt : String
  deriving DecidableEq

namespace UsageEvent

def isReserveOf (reservationId : String) (event : UsageEvent) : Bool :=
  event.action = .reserve ∧ event.reservationId = some reservationId

def isTerminalOf (reservationId : String) (event : UsageEvent) : Bool :=
  event.reservationId = some reservationId ∧ event.action.isTerminal

/-- `adjust` and `compensate` add to the allowance. -/
def allows (event : UsageEvent) : Rat :=
  if event.action = .adjust ∨ event.action = .compensate then event.amount else 0

theorem isReserveOf_eq_true {reservationId : String} {event : UsageEvent} :
    event.isReserveOf reservationId = true ↔
      event.action = .reserve ∧ event.reservationId = some reservationId := decide_eq_true_iff

theorem isTerminalOf_eq_true {reservationId : String} {event : UsageEvent} :
    event.isTerminalOf reservationId = true ↔
      event.reservationId = some reservationId ∧ event.action.isTerminal = true :=
  decide_eq_true_iff

end UsageEvent

structure UsageProjection where
  allowance : Rat
  reserved : Rat
  committed : Rat
  released : Rat
  available : Rat
  deriving DecidableEq

/-- The terminal event the projection knows of a reservation: the map keeps the last one. -/
def terminalOf (events : List UsageEvent) (reservationId : String) : Option UsageEvent :=
  events.reverse.find? (·.isTerminalOf reservationId)

/-- The reservation an event makes, if it makes one under a name. -/
def UsageEvent.reserves (event : UsageEvent) : Option String :=
  if event.action = .reserve then event.reservationId.filter (· ≠ "") else none

/-- What an event adds to the reserved amount. -/
def reservedShare (events : List UsageEvent) (event : UsageEvent) : Rat :=
  match event.reserves with
  | none => 0
  | some reservationId => if (terminalOf events reservationId).isNone then event.amount else 0

/-- What an event adds to the committed amount. -/
def committedShare (events : List UsageEvent) (event : UsageEvent) : Rat :=
  match event.reserves.bind (terminalOf events) with
  | none => 0
  | some terminal => if terminal.action = .commit then terminal.amount else 0

/-- What an event adds to the released amount. -/
def releasedShare (events : List UsageEvent) (event : UsageEvent) : Rat :=
  match event.reserves.bind (terminalOf events) with
  | none => 0
  | some terminal =>
    if terminal.action = .commit then max 0 (event.amount - terminal.amount) else event.amount

/-- `projectUsage`. -/
def projectUsage (events : List UsageEvent) : UsageProjection :=
  let allowance := (events.map (·.allows)).sum
  let reserved := (events.map (reservedShare events)).sum
  let committed := (events.map (committedShare events)).sum
  { allowance, reserved, committed
    released := (events.map (releasedShare events)).sum
    available := max 0 (allowance - reserved - committed) }

/-! ## Routes -/

inductive CandidateRegion
  | cn
  | global
  deriving DecidableEq, Repr

structure RouteCandidate where
  catalogModelId : String
  deploymentId : String
  region : CandidateRegion
  credentialMode : String
  credentialVersion : String
  providerModel : Option String := none
  endpointRevision : Option String := none
  executionChannelId : Option String := none
  accountIdentity : Option String := none
  endpointFingerprint : Option String := none
  dataPolicyRevisionId : Option String := none
  lifecycleRevision : Option String := none
  policyRevision : Option String := none
  priceRevision : Option String := none
  unitPriceMicros : Option Rat := none
  currency : Option String := none
  unit : Option String := none
  fallbackRank : Option Rat := none
  activationStatus : Option String := none
  deriving DecidableEq

inductive RouteSelectionMode
  | fixed
  | llm_auto
  deriving DecidableEq, Repr

inductive GenerationDataClass
  | «public»
  | contains_face
  | pii
  | medical
  deriving DecidableEq, Repr

/-- A frozen route, without the time it was frozen at. -/
structure RouteFacts where
  id : String
  catalogRevision : String
  policyRevision : String
  priceRevision : String
  requestedCatalogModelId : String
  selectionMode : RouteSelectionMode
  dataClass : GenerationDataClass
  dataClasses : Option (List GenerationDataClass) := none
  fallbackConsent : Bool
  maxAttempts : Option Rat := none
  fallbackAuthorized : Option Bool := none
  allowedCandidates : List RouteCandidate
  dataPolicyRevisionId : Option String := none
  sourceKind : Option String := none
  retryOwner : Option String := none
  providerRetryDisabled : Option Bool := none
  deriving DecidableEq

structure RouteSnapshot extends RouteFacts where
  createdAt : String
  deriving DecidableEq

namespace RouteFacts

/-- The deployment is one of the route's. -/
def contains (facts : RouteFacts) (deploymentId : String) : Bool :=
  facts.allowedCandidates.any (·.deploymentId = deploymentId)

end RouteFacts

/-- `sameFrozenRoute`: the texts of the facts are the same, whatever the time. -/
def sameFrozenRoute (left right : RouteSnapshot) : Bool := left.toRouteFacts = right.toRouteFacts

/-! ## Jobs and attempts -/

inductive GenerationStatus
  | queued
  | running
  | waiting
  | completed
  | failed
  | cancel_requested
  | cancelled
  | unknown
  deriving DecidableEq, Repr

/-- `completed`, `failed` and `cancelled` are final. -/
def GenerationStatus.isTerminal : GenerationStatus → Bool
  | .completed | .failed | .cancelled => true
  | _ => false

structure GenerationJob where
  id : String
  operation : UsageResource
  routeSnapshotId : String
  usageReservationId : String
  status : GenerationStatus
  createdBy : String
  correlationId : String
  result : Option Json := none
  createdAt : String
  updatedAt : String

inductive ProviderAcceptance
  | pending
  | rejected_before_accept
  | accepted
  | acceptance_unknown
  deriving DecidableEq, Repr

inductive AttemptStatus
  | pending
  | submitted
  | completed
  | failed
  deriving DecidableEq, Repr

structure ProviderAttempt where
  id : String
  jobId : String
  ordinal : Nat
  deploymentId : String
  acceptance : ProviderAcceptance
  providerTaskRef : Option String := none
  status : AttemptStatus
  createdAt : String
  updatedAt : String
  deriving DecidableEq

inductive CostBillingStatus
  | known
  | externally_billed
  | unknown
  deriving DecidableEq, Repr

/-- The cost of an attempt, as the caller gives it; `amountMicros` may be `null`. -/
structure ProviderCost where
  id : String
  attemptId : String
  amountMicros : Option Rat
  billingStatus : Option CostBillingStatus := none
  deriving DecidableEq

/-- The receipt of an asset, as the caller gives it. -/
structure AssetReceipt where
  id : String
  jobId : String
  attemptId : String
  objectKey : String
  sha256 : String
  sizeBytes : Rat
  deriving DecidableEq

structure OwnedAsset extends AssetReceipt where
  createdAt : String
  deriving DecidableEq

/-! ## The tables -/

structure GenerationTables where
  usageEvents : List UsageEvent
  routeSnapshots : OrderedMap String RouteSnapshot
  generationJobs : OrderedMap String GenerationJob
  attempts : OrderedMap String ProviderAttempt
  providerCosts : List ProviderCost
  assets : OrderedMap String OwnedAsset

abbrev GenerationM := EStateM Thrown GenerationTables

/-- A domain error of the service. -/
def invalidState (message : String) : Thrown := .domain .INVALID_STATE message

namespace GenerationTables

/-- The tables as constructed. -/
def empty : GenerationTables := ⟨[], .empty, .empty, .empty, [], .empty⟩

def listUsageEvents (s : GenerationTables) (resource : UsageResource) : List UsageEvent :=
  s.usageEvents.filter (·.resource = resource)

def listProviderAttempts (s : GenerationTables) (jobId : String) : List ProviderAttempt :=
  s.attempts.values.filter (·.jobId = jobId)

/-- The event that reserved a job's reservation. -/
def reservationOf (s : GenerationTables) (resource : UsageResource) (reservationId : String) :
    Option UsageEvent :=
  (s.listUsageEvents resource).find? (·.isReserveOf reservationId)

/-- The first event that ended it. -/
def endOf (s : GenerationTables) (resource : UsageResource) (reservationId : String) :
    Option UsageEvent :=
  (s.listUsageEvents resource).find? (·.isTerminalOf reservationId)

end GenerationTables

open GenerationTables

def appendUsage (event : UsageEvent) : GenerationM Unit := do
  let s ← get
  if s.usageEvents.any (·.id = event.id) then throw (invalidState "Usage event already exists.")
  set { s with usageEvents := s.usageEvents ++ [event] }

def insertRouteSnapshot (snapshot : RouteSnapshot) : GenerationM Unit := do
  let s ← get
  if (s.routeSnapshots.get? snapshot.id).isSome then
    throw (invalidState "Route snapshot already exists.")
  set { s with routeSnapshots := s.routeSnapshots.set snapshot.id snapshot }

def insertGenerationJob (job : GenerationJob) : GenerationM Unit := do
  let s ← get
  if (s.generationJobs.get? job.id).isSome then
    throw (invalidState "Generation job already exists.")
  set { s with generationJobs := s.generationJobs.set job.id job }

def updateGenerationJob (job : GenerationJob) : GenerationM Unit := do
  let s ← get
  if (s.generationJobs.get? job.id).isNone then
    throw (.domain .NOT_FOUND "Generation job was not found.")
  set { s with generationJobs := s.generationJobs.set job.id job }

def insertProviderAttempt (attempt : ProviderAttempt) : GenerationM Unit := do
  let s ← get
  if (s.attempts.get? attempt.id).isSome then
    throw (invalidState "Provider attempt already exists.")
  set { s with attempts := s.attempts.set attempt.id attempt }

def updateProviderAttempt (attempt : ProviderAttempt) : GenerationM Unit := do
  let s ← get
  if (s.attempts.get? attempt.id).isNone then
    throw (.domain .NOT_FOUND "Provider attempt was not found.")
  set { s with attempts := s.attempts.set attempt.id attempt }

def storeProviderCost (cost : ProviderCost) : GenerationM Unit := do
  let s ← get
  if s.providerCosts.any (·.id = cost.id) then
    throw (invalidState "Provider cost event already exists.")
  set { s with providerCosts := s.providerCosts ++ [cost] }

def insertOwnedAsset (asset : OwnedAsset) : GenerationM Unit := do
  let s ← get
  if (s.assets.get? asset.id).isSome then throw (invalidState "Owned asset already exists.")
  set { s with assets := s.assets.set asset.id asset }

end MeiyeAgent
