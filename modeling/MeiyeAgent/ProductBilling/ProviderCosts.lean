import MeiyeAgent.ProductBilling.UsageLedger
import Mathlib.Data.Rat.Defs

/-!
# ProductBilling/ProviderCosts — what each attempt cost the supplier side

One snapshot an attempt.  A second save of the same attempt must name the same task, deployment and
price revision, and overwrites what was observed since.  Nothing here is ever charged.
-/

namespace MeiyeAgent

open Effect

/-- The kinds of usage evidence; the first three are trusted. -/
inductive UsageEvidenceKind
  | provider_usage
  | provider_bill
  | media_duration
  | estimated
  | unknown
  deriving DecidableEq, Repr

/-- Who pays the provider. -/
inductive ProviderCostPayer
  | platform
  | workspace_byok
  deriving DecidableEq, Repr

/-- What is known of the bill. -/
inductive ProviderBillingStatus
  | known
  | externally_billed
  | unknown
  | estimated
  deriving DecidableEq, Repr

/-- What an attempt fell over to. -/
inductive ProviderFailoverKind
  | same_model_channel
  | model_substitution
  deriving DecidableEq, Repr

/-- A failover, from one deployment to another. -/
structure ProviderFailoverBillingEvent where
  kind : ProviderFailoverKind
  fromCatalogModelId : String
  toCatalogModelId : String
  fromDeploymentId : String
  toDeploymentId : String
  fromExecutionChannelId : Option String
  toExecutionChannelId : Option String
  fromPriceRevision : String
  toPriceRevision : String
  degradationSurfaces : List String
  deriving DecidableEq, Repr

/-- What an attempt cost. -/
structure ProviderCostSnapshot where
  attemptId : String
  taskId : String
  deploymentId : String
  supplierPriceRevision : String
  billingMode : ProductBillingMode
  unitPriceMicros : ℚ
  currency : String
  unit : String
  estimatedCostMicros : Option ℚ
  observedCostMicros : Option (Option ℚ)
  usageQuantity : Option ℚ
  usageUnit : Option String
  evidence : Option String
  evidenceKind : Option UsageEvidenceKind
  supplyCostDeltaMicros : Option ℚ
  failover : Option ProviderFailoverBillingEvent
  payer : ProviderCostPayer
  billingStatus : ProviderBillingStatus
  deriving DecidableEq

/-- What a caller says of an attempt's cost; the attempt, its task and deployment come besides. -/
structure ProviderCostFacts where
  supplierPriceRevision : String
  billingMode : ProductBillingMode
  unitPriceMicros : ℚ
  currency : String
  unit : String
  estimatedCostMicros : Option ℚ := none
  observedCostMicros : Option (Option ℚ) := none
  usageQuantity : Option ℚ := none
  usageUnit : Option String := none
  evidence : Option String := none
  evidenceKind : Option UsageEvidenceKind := none
  supplyCostDeltaMicros : Option ℚ := none
  failover : Option ProviderFailoverBillingEvent := none
  payer : Option ProviderCostPayer := none
  deriving DecidableEq

/-- The evidence that makes a cost known. -/
def isTrustedUsageEvidence : UsageEvidenceKind → Bool
  | .provider_usage | .provider_bill | .media_duration => true
  | .estimated | .unknown => false

/-- The cost of an attempt, once its facts are checked. -/
def buildProviderCostSnapshot (attemptId taskId deploymentId : String) (input : ProviderCostFacts) :
    Except Thrown ProviderCostSnapshot := do
  if Text.isBlank attemptId ∨ Text.isBlank taskId ∨ Text.isBlank deploymentId then
    throw (.domain .INVALID_STATE
      "ProviderCostSnapshot requires attemptId, taskId, and deploymentId.")
  if Text.isBlank input.supplierPriceRevision then
    throw (.domain .INVALID_STATE "ProviderCostSnapshot requires supplierPriceRevision.")
  let evidenceKind := input.evidenceKind.getD .estimated
  return {
    attemptId, taskId, deploymentId
    supplierPriceRevision := input.supplierPriceRevision
    billingMode := input.billingMode
    unitPriceMicros := input.unitPriceMicros
    currency := input.currency
    unit := input.unit
    estimatedCostMicros := input.estimatedCostMicros
    observedCostMicros := input.observedCostMicros
    usageQuantity := input.usageQuantity
    usageUnit := input.usageUnit
    evidence := input.evidence
    evidenceKind := some evidenceKind
    supplyCostDeltaMicros := input.supplyCostDeltaMicros
    failover := input.failover
    payer := input.payer.getD .platform
    billingStatus :=
      if evidenceKind = .unknown then .unknown
      else if isTrustedUsageEvidence evidenceKind ∧ (input.observedCostMicros.getD none).isSome then
        .known
      else if evidenceKind = .estimated then .estimated
      else .unknown }

/-- What was made beyond the order costs the supply, not the merchant. -/
def absorbOverproductionToSupplyCost (snapshot : ProviderCostSnapshot)
    (overproductionCostMicros : ℚ) : Except Thrown ProviderCostSnapshot := do
  if overproductionCostMicros < 0 ∨ Doubles.largest < overproductionCostMicros then
    throw (.domain .INVALID_STATE
      "overproductionCostMicros must be a finite non-negative number.")
  return { snapshot with
    supplyCostDeltaMicros :=
      some (Doubles.rounded
        (snapshot.supplyCostDeltaMicros.getD 0 + overproductionCostMicros)) }

/-- The costs by attempt, and the attempts of each task. -/
structure MemoryProviderCostSnapshotStore where
  byAttempt : OrderedMap String ProviderCostSnapshot
  byTask : OrderedMap String (List String)
  deriving DecidableEq

namespace MemoryProviderCostSnapshotStore

/-- No cost is kept. -/
def empty : MemoryProviderCostSnapshotStore := ⟨.empty, .empty⟩

/-- A later save of an attempt: what was observed since replaces what was. -/
def merge (existing snapshot : ProviderCostSnapshot) : ProviderCostSnapshot :=
  { existing with
    observedCostMicros := snapshot.observedCostMicros <|> existing.observedCostMicros
    usageQuantity := snapshot.usageQuantity <|> existing.usageQuantity
    usageUnit := snapshot.usageUnit <|> existing.usageUnit
    evidence := snapshot.evidence <|> existing.evidence
    supplyCostDeltaMicros := snapshot.supplyCostDeltaMicros <|> existing.supplyCostDeltaMicros
    billingStatus := snapshot.billingStatus
    evidenceKind := snapshot.evidenceKind <|> existing.evidenceKind }

/-- A cost is kept; a later save of the attempt is merged, one of another task refused. -/
def save (snapshot : ProviderCostSnapshot) :
    EStateM Thrown MemoryProviderCostSnapshotStore ProviderCostSnapshot := do
  match (← get).byAttempt.get? snapshot.attemptId with
  | some existing =>
    if existing.taskId ≠ snapshot.taskId ∨ existing.deploymentId ≠ snapshot.deploymentId ∨
        existing.supplierPriceRevision ≠ snapshot.supplierPriceRevision then
      throw (.domain .IDEMPOTENCY_CONFLICT ("ProviderCostSnapshot " ++ snapshot.attemptId ++
        " already exists with different facts."))
    let merged := merge existing snapshot
    modify fun store => { store with byAttempt := store.byAttempt.set snapshot.attemptId merged }
    return merged
  | none =>
    modify fun store =>
      { byAttempt := store.byAttempt.set snapshot.attemptId snapshot
        byTask := store.byTask.set snapshot.taskId
          ((store.byTask.get? snapshot.taskId).getD [] ++ [snapshot.attemptId]) }
    return snapshot

end MemoryProviderCostSnapshotStore

end MeiyeAgent
