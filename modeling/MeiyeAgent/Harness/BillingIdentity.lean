import MeiyeAgent.Foundation.TextOrder
import MeiyeAgent.Machinery.Base64

/-!
# Harness/BillingIdentity — the identity a settlement is made under, and its keys

An identity is built once, from the request frozen at admission.  Whatever is missing or disagrees
is refused; nothing is guessed.

* `buildBillingIdentity` — the identity of a request.
* `settlementIdempotencyKey` — the key of one carrier unit.
* `workSettlementKey` — the key of the whole work.
-/

namespace MeiyeAgent

open Effect

/-! ## Errors -/

inductive BillingIdentityErrorCode
  | BILLING_IDENTITY_UNAVAILABLE
  | BILLING_IDENTITY_MISMATCH
  deriving DecidableEq, Repr

/-- What a settlement may throw: a `BillingIdentityError`, or a plain `Error`. -/
inductive BillingThrown
  | identity (code : BillingIdentityErrorCode) (message : String)
  | error (message : String)
  deriving DecidableEq, Repr

namespace BillingThrown

def unavailable (message : String) : BillingThrown := identity .BILLING_IDENTITY_UNAVAILABLE message

def mismatch (message : String) : BillingThrown := identity .BILLING_IDENTITY_MISMATCH message

end BillingThrown

/-! ## Data -/

structure BillingQuoteRef where
  id : String
  revision : String
  deriving DecidableEq, Repr

inductive PlanDeliverableCarrier
  | copy
  | note
  | media
  deriving DecidableEq, Repr

structure PackageCatalogModel where
  id : String
  revision : String
  deriving DecidableEq, Repr

structure ExecutionPlanPackageBillingAllocation where
  carrierUnitId : String
  allocationId : String
  carrier : PlanDeliverableCarrier
  deliveryUnits : Int
  creditCost : Int
  failureRefundsCredits : Bool
  operation : String
  catalogModel : PackageCatalogModel
  routeSnapshotRef : String
  rightsRevisionRefs : List String
  deriving DecidableEq, Repr

structure ExecutionPlanPackageBilling where
  contractHash : String
  allocations : List ExecutionPlanPackageBillingAllocation
  deriving DecidableEq, Repr

structure BillingIdentity where
  workspaceId : String
  taskId : String
  workId : String
  workflowId : String
  quoteRef : BillingQuoteRef
  creditHoldOperationId : Option String
  creditUsageOperationId : Option String
  productUsageReservationId : Option String
  reservationId : String
  carrierUnitId : Option String
  carrierUnitIds : Option (List String)
  carrierBillableUnits : Option Int
  packageBilling : Option ExecutionPlanPackageBilling
  planId : Option String
  planRevision : Option Int
  snapshotHash : Option String
  deriving DecidableEq, Repr

/-- The execution snapshot of a request; a revision that is a number is known by its text. -/
structure BillingExecutionSnapshot where
  workId : Option String
  quote : Option BillingQuoteRef
  deriving DecidableEq, Repr

structure BillingPlanSnapshot where
  planId : Option String
  planRevision : Option Int
  snapshotHash : Option String
  quoteRef : Option BillingQuoteRef
  packageBilling : Option ExecutionPlanPackageBilling
  deriving DecidableEq, Repr

/-- A plan not yet admitted; its hash stands beside its content. -/
structure PendingBillingPlanSnapshot where
  snapshotHash : Option String
  content : Option BillingPlanSnapshot
  deriving DecidableEq, Repr

structure BillingUsageReservation where
  id : Option String
  creditUsageOperationId : Option String
  deriving DecidableEq, Repr

structure BillingIdentitySource where
  workspaceId : Option String
  creditHoldOperationId : Option String := none
  creditUsageOperationId : Option String := none
  productUsageReservationId : Option String := none
  reservationId : Option String := none
  billingTaskId : Option String
  carrierUnitId : Option String
  carrierUnitIds : Option (List String)
  carrierBillableUnits : Option Int
  executionSnapshot : Option BillingExecutionSnapshot
  executionPlanSnapshot : Option BillingPlanSnapshot := none
  pendingExecutionPlanSnapshot : Option PendingBillingPlanSnapshot := none
  executionConfirmationReservationIdempotencyKey : Option String := none
  usageReservation : Option BillingUsageReservation := none
  deriving DecidableEq, Repr

/-! ## Package allocations -/

/-- A text without the white space around it, that is not empty and at most `most` units long. -/
def parseText (most : Nat) (text : String) : Option String :=
  some (Text.trim text) |>.filter fun text => text ≠ "" ∧ (codeUnits text).length ≤ most

def parseAllocation (allocation : ExecutionPlanPackageBillingAllocation) :
    Option ExecutionPlanPackageBillingAllocation := do
  let carrierUnitId ← parseText 200 allocation.carrierUnitId
  let allocationId ← parseText 200 allocation.allocationId
  guard (isSafeInteger allocation.deliveryUnits ∧ 0 < allocation.deliveryUnits)
  guard (isSafeInteger allocation.creditCost ∧ 0 ≤ allocation.creditCost)
  let operation ← parseText 200 allocation.operation
  let modelId ← parseText 200 allocation.catalogModel.id
  let modelRevision ← parseText 200 allocation.catalogModel.revision
  let routeSnapshotRef ← parseText 500 allocation.routeSnapshotRef
  let rightsRevisionRefs ← allocation.rightsRevisionRefs.mapM (parseText 500)
  guard (1 ≤ rightsRevisionRefs.length ∧ rightsRevisionRefs.length ≤ 100)
  return {
    allocation with
    carrierUnitId
    allocationId
    operation
    catalogModel := ⟨modelId, modelRevision⟩
    routeSnapshotRef
    rightsRevisionRefs }

/-- `executionPlanPackageBillingSchema.safeParse`. -/
def parsePackageBilling (packageBilling : ExecutionPlanPackageBilling) :
    Option ExecutionPlanPackageBilling := do
  let contractHash ← parseText 128 packageBilling.contractHash
  let allocations ← packageBilling.allocations.mapM parseAllocation
  guard (1 ≤ allocations.length ∧ allocations.length ≤ 50)
  guard (allocations.map (·.allocationId)).Nodup
  guard (allocations.map (·.carrierUnitId)).Nodup
  return ⟨contractHash, allocations⟩

def assertPackageBillingForCarrier (packageBilling : ExecutionPlanPackageBilling)
    (carrierUnitId : String) (carrierUnitIds : List String) (carrierBillableUnits : Option Int) :
    Except BillingThrown ExecutionPlanPackageBillingAllocation :=
  match parsePackageBilling packageBilling with
  | none => throw (.unavailable "Billing identity package allocation is malformed.")
  | some parsed =>
    let carrierUnitIds := carrierUnitIds.map Text.trim
    let allocationOf := fun carrier => parsed.allocations.find? (·.carrierUnitId = carrier)
    match (allocationOf carrierUnitId).filter fun allocation =>
        parsed.allocations.length = carrierUnitIds.length ∧ carrierUnitIds.Nodup ∧
          (∀ carrier ∈ carrierUnitIds, (allocationOf carrier).isSome) ∧
          some allocation.deliveryUnits = carrierBillableUnits with
    | some allocation => pure allocation
    | none => throw (.unavailable
        "Billing identity requires an exact frozen package allocation for its carrier unit.")

/-! ## Operations -/

/-- `value?.trim()`, when that is not empty. -/
def optionalOperation (value : Option String) : Option String :=
  (value.map Text.trim).filter (· ≠ "")

/-- An operation under its two names, which must agree; `field` is what the error calls it. -/
def resolveTypedOperation (field : String) (direct legacy : Option String) :
    Except BillingThrown (Option String) :=
  match optionalOperation direct, optionalOperation legacy with
  | some direct, some legacy =>
    if direct ≠ legacy then
      throw (.mismatch ("Billing identity " ++ field ++ " disagrees with its durable source."))
    else pure (some direct)
  | some direct, none => pure (some direct)
  | none, legacy => pure legacy

/-- The text of the three operations; one that is absent is a dash. -/
def typedFingerprint (creditHold creditUsage productUsage : Option String) : String :=
  Text.join '|' ["typed", creditHold.getD "-", creditUsage.getD "-", productUsage.getD "-"]

def reservationFingerprint (creditHold creditUsage productUsage reservationId : Option String) :
    Except BillingThrown String :=
  let creditHold := optionalOperation creditHold
  let creditUsage := optionalOperation creditUsage
  let productUsage := optionalOperation productUsage
  let legacy := optionalOperation reservationId
  if creditHold = none ∧ creditUsage = none ∧ productUsage = none then
    match legacy with
    | some legacy => pure legacy
    | none => throw (.unavailable "Billing identity has no explicit operation source.")
  else
    let fingerprint := typedFingerprint creditHold creditUsage productUsage
    if legacy.any (· ≠ fingerprint) then
      throw (.mismatch
        "Legacy reservationId does not match the explicit typed operation sources.")
    else pure fingerprint

namespace BillingIdentity

def billingIdentityReservationFingerprint (identity : BillingIdentity) :
    Except BillingThrown String :=
  reservationFingerprint identity.creditHoldOperationId identity.creditUsageOperationId
    identity.productUsageReservationId (some identity.reservationId)

/-- The allocation of the identity's carrier: none without a package, and a malformed package is
refused. -/
def billingPackageAllocation (identity : BillingIdentity) :
    Except BillingThrown (Option ExecutionPlanPackageBillingAllocation) :=
  match identity.packageBilling with
  | none => pure none
  | some packageBilling =>
    match optionalOperation identity.carrierUnitId, identity.carrierUnitIds with
    | some carrierUnitId, some carrierUnitIds =>
      some <$> assertPackageBillingForCarrier packageBilling carrierUnitId
        (carrierUnitIds.map Text.trim) identity.carrierBillableUnits
    | _, _ => throw (.unavailable
        "Billing identity package allocation requires frozen carrier membership.")

/-! ## Keys -/

/-- The contract of the package, and the allocation of the carrier. -/
def packageFacts (identity : BillingIdentity) : Except BillingThrown (List String) :=
  match identity.packageBilling with
  | none => pure []
  | some packageBilling => do
    match ← identity.billingPackageAllocation with
    | some allocation => return [packageBilling.contractHash, allocation.allocationId]
    | none => throw (.unavailable
        "Billing identity package allocation does not match its carrier unit.")

/-- The key of one carrier unit. -/
def settlementIdempotencyKey (identity : BillingIdentity) : Except BillingThrown String := do
  match optionalOperation identity.carrierUnitId with
  | none => throw (.unavailable
      "Settlement idempotency requires the frozen carrier unit id.")
  | some carrierUnitId =>
    let fingerprint ← identity.billingIdentityReservationFingerprint
    let package ← identity.packageFacts
    let facts := [identity.workspaceId, identity.workId, identity.quoteRef.id,
      identity.quoteRef.revision, fingerprint, carrierUnitId] ++ package
    return "billing-unit:" ++ Text.join ':' (facts.map Base64.base64)

/-- The carriers of the work, sorted. -/
def frozenCarrierUnits (identity : BillingIdentity) : Except BillingThrown (List String) :=
  match optionalOperation identity.carrierUnitId,
    identity.carrierUnitIds.map (·.map Text.trim) with
  | some carrier, some units =>
    if units = [] ∨ "" ∈ units ∨ ¬ units.Nodup ∨ carrier ∉ units then
      throw (.error "Carrier settlement requires an exact frozen carrier set.")
    else pure (sortTexts units)
  | _, _ => throw (.error "Carrier settlement requires an exact frozen carrier set.")

/-- The key of the whole work. -/
def workSettlementKey (identity : BillingIdentity) : Except BillingThrown String := do
  let carriers ← identity.frozenCarrierUnits
  let _ ← identity.billingPackageAllocation
  let fingerprint ← identity.billingIdentityReservationFingerprint
  let package := (identity.packageBilling.map (·.contractHash)).filter (· ≠ "")
  let facts := [identity.workspaceId, identity.taskId, identity.workId, identity.quoteRef.id,
    identity.quoteRef.revision, fingerprint] ++ carriers ++ package.toList
  return "billing-work:" ++ Text.join ':' (facts.map Base64.base64)

end BillingIdentity

/-- The workspace a work's key begins with. -/
def workspaceIdFromWorkSettlementKey (aggregateKey : String) : Except BillingThrown String :=
  match Text.split ':' aggregateKey with
  | head :: encodedWorkspace :: remainder =>
    if head ≠ "billing-work" ∨ encodedWorkspace = "" ∨ remainder.length < 6 then
      throw (.error "Work settlement key does not contain a frozen workspace.")
    else
      let workspaceId := Base64.fromBase64 encodedWorkspace
      if Text.isBlank workspaceId then
        throw (.error "Work settlement key contains an empty frozen workspace.")
      else pure workspaceId
  | _ => throw (.error "Work settlement key does not contain a frozen workspace.")

/-! ## Building -/

namespace BillingIdentitySource

/-- The plan that counts: a pending one once its revision is later. -/
def effectivePlan (request : BillingIdentitySource) : Option BillingPlanSnapshot :=
  let pending := request.pendingExecutionPlanSnapshot.bind fun pending =>
    pending.content.map fun content => { content with snapshotHash := pending.snapshotHash }
  match request.executionPlanSnapshot, pending with
  | some admitted, some pending =>
    if pending.planRevision.getD 0 > admitted.planRevision.getD 0 then some pending
    else some admitted
  | some admitted, none => some admitted
  | none, pending => pending

def effectiveQuoteRef (request : BillingIdentitySource) (snapshot : BillingExecutionSnapshot) :
    Option BillingQuoteRef :=
  match request.effectivePlan with
  | some plan => plan.quoteRef.filter fun quoteRef =>
      ¬ Text.isBlank quoteRef.id ∧ ¬ Text.isBlank quoteRef.revision
  | none => snapshot.quote.filter fun quoteRef => ¬ Text.isBlank quoteRef.id

end BillingIdentitySource

/-- A text that is required: trimmed, and not empty. -/
def requireText (value : Option String) (message : String) : Except BillingThrown String :=
  match optionalOperation value with
  | some text => pure text
  | none => throw (.unavailable message)

def requireQuoteRef (request : BillingIdentitySource) (snapshot : BillingExecutionSnapshot) :
    Except BillingThrown BillingQuoteRef :=
  match request.effectiveQuoteRef snapshot with
  | some quoteRef => pure quoteRef
  | none => throw (.unavailable "Billing identity requires the frozen quote reference.")

/-- The plan's own facts are there. -/
def planIsExact (plan : BillingPlanSnapshot) : Bool :=
  (optionalOperation plan.planId).isSome ∧
    (plan.planRevision.any fun revision => isSafeInteger revision ∧ 1 ≤ revision) ∧
    (optionalOperation plan.snapshotHash).isSome ∧
    plan.quoteRef.any fun quoteRef =>
      ¬ Text.isBlank quoteRef.id ∧ ¬ Text.isBlank quoteRef.revision

/-- The carrier, and its set, trimmed. -/
def requireCarriers (request : BillingIdentitySource) :
    Except BillingThrown (String × List String) :=
  match optionalOperation request.carrierUnitId, request.carrierUnitIds.map (·.map Text.trim) with
  | some carrier, some units =>
    if units = [] ∨ "" ∈ units ∨ ¬ units.Nodup ∨ carrier ∉ units then
      throw (.unavailable
        "Billing identity requires one exact frozen carrier set containing its unit.")
    else pure (carrier, units)
  | _, _ => throw (.unavailable
      "Billing identity requires one exact frozen carrier set containing its unit.")

/-- The identity of a request: none when nothing is billable. -/
def buildBillingIdentity (request : BillingIdentitySource) (workflowId : String) :
    Except BillingThrown (Option BillingIdentity) :=
  match request.executionSnapshot with
  | none => pure none
  | some snapshot => do
    let workspaceId ← requireText request.workspaceId
      "Billing identity requires the frozen workspace."
    let workId ← requireText snapshot.workId "Billing identity requires the frozen work id."
    let taskId ← requireText request.billingTaskId
      "Billing identity requires the frozen billing task id."
    let quoteRef ← requireQuoteRef request snapshot
    let creditHoldOperationId ← resolveTypedOperation "creditHoldOperationId"
      request.creditHoldOperationId request.executionConfirmationReservationIdempotencyKey
    let creditUsageOperationId ← resolveTypedOperation "creditUsageOperationId"
      request.creditUsageOperationId (request.usageReservation.bind (·.creditUsageOperationId))
    let productUsageReservationId ← resolveTypedOperation "productUsageReservationId"
      request.productUsageReservationId (request.usageReservation.bind (·.id))
    if creditHoldOperationId = none ∧ creditUsageOperationId = none ∧
        productUsageReservationId = none then
      throw (.unavailable ("Billing identity requires an explicit frozen hold, credit usage, " ++
        "or ProductUsage operation."))
    let reservationId ← reservationFingerprint creditHoldOperationId creditUsageOperationId
      productUsageReservationId (optionalOperation request.reservationId)
    let plan := request.effectivePlan
    if plan.any fun plan => ¬ planIsExact plan then
      throw (.unavailable
        "Billing identity requires the exact frozen plan, snapshot, and quote facts.")
    let (carrierUnitId, carrierUnitIds) ← requireCarriers request
    if ¬ request.carrierBillableUnits.any fun units => isSafeInteger units ∧ 1 ≤ units then
      throw (.unavailable
        "Billing identity requires a positive frozen carrier billable allocation.")
    let packageBilling := plan.bind (·.packageBilling)
    let _ ← packageBilling.mapM fun packageBilling => assertPackageBillingForCarrier
      packageBilling carrierUnitId carrierUnitIds request.carrierBillableUnits
    return some {
      workspaceId
      taskId
      workId
      workflowId
      quoteRef
      creditHoldOperationId
      creditUsageOperationId
      productUsageReservationId
      reservationId
      carrierUnitId
      carrierUnitIds := some (sortTexts carrierUnitIds)
      carrierBillableUnits := request.carrierBillableUnits
      packageBilling
      planId := plan.bind (·.planId)
      planRevision := plan.bind (·.planRevision)
      snapshotHash := plan.bind (·.snapshotHash) }

end MeiyeAgent
