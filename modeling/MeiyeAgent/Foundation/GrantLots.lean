import MeiyeAgent.Foundation.Runtime
import MeiyeAgent.Machinery.Greedy
import MeiyeAgent.Machinery.OrderedMap

/-!
# Foundation/GrantLots — the in-memory ledger of grant lots

Lots hold what a workspace was granted of a resource; usage is taken from them first to expire
first, refunds and repairs rebuild what remains of a lot from the transactions on it, and a legacy
balance is migrated once, by usage rows or by one lot that makes up the difference.

* `MemoryGrantLotLedger` — the lots, their transactions and the migrations done.
* `migrateLegacyBalance` — the migration, undone whole when it throws.
* `runGrantLots` — any calls on a new ledger.
-/

namespace MeiyeAgent

open Effect Table Greedy Text

/-! ## Lots and transactions -/

/-- What a lot is of. -/
inductive GrantLotResource
  | copy
  | image
  | video
  | audio
  deriving DecidableEq, Repr

/-- `GrantLot.transactionType`. -/
inductive GrantLotGrantType
  | REGISTER_GIFT
  | SUBSCRIPTION_RENEWAL
  | PURCHASE_PACKAGE
  | REDEMPTION_CODE
  deriving DecidableEq, Repr

/-- What a row records. -/
inductive GrantLotTransactionType
  | grant (type : GrantLotGrantType)
  | REFUND
  | USAGE
  | EXPIRE
  deriving DecidableEq, Repr

/-- What a lot was granted for. -/
inductive GrantLotGrantSource
  | plan
  | campaign
  | purchase
  | redemption
  | register_gift
  | pool_allocation
  | support_compensation
  deriving DecidableEq, Repr

/-- A grant, and what is left of it. -/
structure GrantLot where
  id : String
  workspaceId : String
  resource : GrantLotResource
  originalAmount : Int
  entitlementAmount : Option Int
  remainingAmount : Int
  expirationDate : Option String
  transactionType : GrantLotGrantType
  sourceRef : Option String
  supplyPoolId : Option String
  grantSource : Option GrantLotGrantSource
  grantIdempotencyKey : Option String
  revision : Option Nat
  createdAt : String
  deriving DecidableEq

/-- A row of the book. -/
structure GrantLotTransaction where
  id : String
  workspaceId : String
  resource : GrantLotResource
  transactionType : GrantLotTransactionType
  amount : Int
  lotId : String
  relatedTransactionId : Option String := none
  operationId : Option String
  actorId : String
  correlationId : String
  createdAt : String
  deriving DecidableEq

/-- What was granted, used and given back of a resource. -/
structure GrantLotProjection where
  resource : GrantLotResource
  grantedAmount : Int
  usedAmount : Int
  refundedAmount : Int
  expiredAmount : Int
  remainingAmount : Int
  deriving DecidableEq

structure GrantLotGrantInput where
  id : String
  workspaceId : String
  resource : GrantLotResource
  amount : Int
  expirationDate : Option String
  transactionType : GrantLotGrantType
  sourceRef : Option String := none
  supplyPoolId : Option String := none
  grantSource : Option GrantLotGrantSource := none
  createdAt : String
  actorId : Option String := none
  correlationId : Option String := none
  grantIdempotencyKey : Option String := none
  deriving DecidableEq

structure GrantLotConsumeInput where
  workspaceId : String
  resource : GrantLotResource
  amount : Int
  transactionId : String
  actorId : String
  correlationId : String
  createdAt : String
  deriving DecidableEq

structure GrantLotRefundInput where
  workspaceId : String
  usageTransactionId : String
  refundTransactionId : String
  amount : Option Int
  actorId : String
  correlationId : String
  createdAt : String
  deriving DecidableEq

structure GrantLotRefundOperationInput where
  workspaceId : String
  usageOperationId : String
  refundOperationId : String
  amount : Option Int
  actorId : String
  correlationId : String
  createdAt : String
  deriving DecidableEq

structure GrantLotEntitlementReconciliationInput where
  workspaceId : String
  resource : GrantLotResource
  lotIds : List String
  targetAmount : Int
  expirationDate : String
  operationId : String
  actorId : String
  correlationId : String
  asOf : String
  deriving DecidableEq

structure GrantLotExpiryInput where
  workspaceId : String
  now : String
  actorId : String
  correlationId : String
  deriving DecidableEq

structure LegacyGrantLotMigrationInput where
  workspaceId : String
  resource : GrantLotResource
  legacyAvailable : Int
  legacySnapshotId : String
  balanceLotId : String
  createdAt : String
  asOf : String
  deriving DecidableEq

/-- The text of a resource. -/
def GrantLotResource.text : GrantLotResource → String
  | .copy => "copy"
  | .image => "image"
  | .video => "video"
  | .audio => "audio"

/-! ## First to expire, first out -/

variable (host : Host)

/-- The earlier lot first, then by id. -/
def compareGrantLotCreation (left right : GrantLot) : Option Int :=
  let byCreatedAt := Num.sub (host.dateParse left.createdAt) (host.dateParse right.createdAt)
  if byCreatedAt ≠ some 0 then byCreatedAt else some (host.localeCompare left.id right.id)

/-- The lot that expires sooner first; without an expiration, last. -/
def compareGrantLotsForFifo (left right : GrantLot) : Option Int :=
  match left.expirationDate, right.expirationDate with
  | none, none => compareGrantLotCreation host left right
  | none, some _ => some 1
  | some _, none => some (-1)
  | some l, some r =>
    let byExpiry := Num.sub (host.dateParse l) (host.dateParse r)
    if byExpiry ≠ some 0 then byExpiry else compareGrantLotCreation host left right

/-- What each lot gives of an amount. -/
def allocateFifoConsumption (lots : List GrantLot) (amount : Int) : List (String × Int) :=
  if amount ≤ 0 then []
  else (greedy (·.remainingAmount) amount
    (sortBy (compareGrantLotsForFifo host) (lots.filter fun lot => 0 < lot.remainingAmount))).map
      fun (lot, taken) => (lot.id, taken)

/-! ## Keys and checks -/

def GRANT_IDEMPOTENCY_KEY_PREFIX : String := "grant:"

def CONSUME_IDEMPOTENCY_KEY_PREFIX : String := "consume:"

/-- The key a grant is known by. -/
def normalizeGrantIdempotencyKey (lotId : String) (explicit : Option String) :
    Except Thrown String :=
  match explicit.filter fun key => ¬ isBlank key with
  | some key =>
    if startsWith key CONSUME_IDEMPOTENCY_KEY_PREFIX then
      throw (.domain .INVALID_STATE "Grant idempotency key must not use the consume: namespace.")
    else if startsWith key GRANT_IDEMPOTENCY_KEY_PREFIX then pure key
    else pure (GRANT_IDEMPOTENCY_KEY_PREFIX ++ key)
  | none => pure (GRANT_IDEMPOTENCY_KEY_PREFIX ++ lotId)

/-- The key a usage is known by. -/
def normalizeConsumeIdempotencyKey (explicit : String) : Except Thrown String := do
  if isBlank explicit then throw (.domain .INVALID_STATE "Consume idempotency key is required.")
  if startsWith explicit GRANT_IDEMPOTENCY_KEY_PREFIX then
    throw (.domain .INVALID_STATE "Consume idempotency key must not use the grant: namespace.")
  return explicit

def assertIndependentGrantConsumeIdempotencyKeys (grantKey consumeKey : String) :
    Except Thrown Unit := do
  if isBlank grantKey ∨ isBlank consumeKey then
    throw (.domain .INVALID_STATE "Grant and consume idempotency keys are both required.")
  if grantKey = consumeKey then
    throw (.domain .INVALID_STATE "Grant and consume must use independent idempotency keys.")
  if startsWith consumeKey GRANT_IDEMPOTENCY_KEY_PREFIX then
    throw (.domain .INVALID_STATE "Consume idempotency key must not use the grant: namespace.")
  if startsWith grantKey CONSUME_IDEMPOTENCY_KEY_PREFIX then
    throw (.domain .INVALID_STATE "Grant idempotency key must not use the consume: namespace.")

/-- An instant that can be read. -/
def assertIsoTimestamp (value field : String) : Except Thrown Unit := do
  if isBlank value ∨ (host.dateParse value).isNone then
    throw (.domain .INVALID_STATE (field ++ " must be an ISO timestamp."))

/-- What a grant has to say. -/
def assertGrantLotGrantInput (input : GrantLotGrantInput) : Except Thrown Unit := do
  if isBlank input.id ∨ isBlank input.workspaceId then
    throw (.domain .INVALID_STATE "Grant lot identity and workspace are required.")
  if input.amount ≤ 0 then
    throw (.domain .INVALID_STATE "Grant lot amount must be a positive integer.")
  assertIsoTimestamp host input.createdAt "createdAt"
  match input.expirationDate with
  | none => pure ()
  | some date =>
    assertIsoTimestamp host date "expirationDate"
    if Num.le (host.dateParse date) (host.dateParse input.createdAt) then
      throw (.domain .INVALID_STATE "Grant expiration must be after its creation time.")

def assertGrantLotEntitlementReconciliationInput
    (input : GrantLotEntitlementReconciliationInput) : Except Thrown Unit := do
  if input.targetAmount < 0 then
    throw (.domain .INVALID_STATE "Entitlement target amount must be a non-negative integer.")
  assertIsoTimestamp host input.expirationDate "expirationDate"
  assertIsoTimestamp host input.asOf "asOf"
  if isBlank input.operationId then
    throw (.domain .INVALID_STATE "Entitlement reconciliation operation is required.")

/-- The expiration is the first one, or before it. -/
def expirationIsSameOrShorter (current original : Option String) : Bool :=
  current == original ||
    match current, original with
    | some current, some original => Num.le (host.dateParse current) (host.dateParse original)
    | _, original => original.isNone

/-! ## The ledger -/

/-- The lots and transactions in order of insertion, and the keys of the migrations done. -/
structure MemoryGrantLotLedger where
  lots : List GrantLot
  transactions : List GrantLotTransaction
  legacyBalanceMigrations : List String
  deriving DecidableEq

/-- A call on the book. -/
abbrev GrantLotM := EStateM Thrown MemoryGrantLotLedger

/-- The lot `id` of a workspace. -/
def GrantLot.isLot (workspaceId id : String) (lot : GrantLot) : Bool :=
  lot.workspaceId == workspaceId && lot.id == id

/-- `entitlementAmount ?? originalAmount`. -/
def GrantLot.cap (lot : GrantLot) : Int := lot.entitlementAmount.getD lot.originalAmount

/-- `(revision ?? 1) + 1`. -/
def GrantLot.nextRevision (lot : GrantLot) : Nat := lot.revision.getD 1 + 1

/-- The lot expires after `asOf`, or never. -/
def GrantLot.openAt (lot : GrantLot) (asOf : String) : Bool :=
  match lot.expirationDate with
  | none => true
  | some date => Num.gt (host.dateParse date) (host.dateParse asOf)

/-- The lot has an expiry date, and it is not after `asOf`. -/
def GrantLot.dueAt (lot : GrantLot) (asOf : String) : Bool :=
  match lot.expirationDate with
  | none => false
  | some date => Num.le (host.dateParse date) (host.dateParse asOf)

namespace MemoryGrantLotLedger

/-- The ledger as constructed. -/
def empty : MemoryGrantLotLedger := ⟨[], [], []⟩

def listLots (s : MemoryGrantLotLedger) (workspaceId : String) : List GrantLot :=
  s.lots.filter (·.workspaceId == workspaceId)

def findLot (s : MemoryGrantLotLedger) (workspaceId id : String) : Option GrantLot :=
  s.lots.find? (·.isLot workspaceId id)

/-- An assignment to the fields of a lot. -/
def amend (s : MemoryGrantLotLedger) (workspaceId id : String) (change : GrantLot → GrantLot) :
    MemoryGrantLotLedger :=
  { s with lots := updateFirst (·.isLot workspaceId id) change s.lots }

/-- `this.transactions.push`. -/
def push (s : MemoryGrantLotLedger) (t : GrantLotTransaction) : MemoryGrantLotLedger :=
  { s with transactions := s.transactions ++ [t] }

/-- The key of a migration. -/
def migrationKey (workspaceId : String) (resource : GrantLotResource) : String :=
  workspaceId ++ ":" ++ resource.text ++ ":v1"

def isLegacyBalanceMigrated (s : MemoryGrantLotLedger) (workspaceId : String)
    (resource : GrantLotResource) : Bool :=
  s.legacyBalanceMigrations.contains (migrationKey workspaceId resource)

end MemoryGrantLotLedger

/-- A balance of the old form is migrated once. -/
def markLegacyBalanceMigrated (workspaceId : String) (resource : GrantLotResource)
    (completedAt : String) : GrantLotM Unit := do
  check (assertIsoTimestamp host completedAt "completedAt")
  modify fun s => { s with
    legacyBalanceMigrations :=
      s.legacyBalanceMigrations.insert (MemoryGrantLotLedger.migrationKey workspaceId resource) }

/-! ### Grants -/

/-- The lot a grant opens. -/
def openedGrantLot (input : GrantLotGrantInput) (grantKey : String) : GrantLot where
  id := input.id
  workspaceId := input.workspaceId
  resource := input.resource
  originalAmount := input.amount
  entitlementAmount := some input.amount
  remainingAmount := input.amount
  expirationDate := input.expirationDate
  transactionType := input.transactionType
  sourceRef := input.sourceRef.filter (· ≠ "")
  supplyPoolId := input.supplyPoolId.filter (· ≠ "")
  grantSource := input.grantSource
  grantIdempotencyKey := some grantKey
  revision := some 1
  createdAt := input.createdAt

def grantLotTransaction (input : GrantLotGrantInput) (grantKey : String) : GrantLotTransaction where
  id := "tx-grant-" ++ input.id
  workspaceId := input.workspaceId
  resource := input.resource
  transactionType := .grant input.transactionType
  amount := input.amount
  lotId := input.id
  operationId := some grantKey
  actorId := input.actorId.getD "system"
  correlationId := input.correlationId.getD "grant"
  createdAt := input.createdAt

/-- The lot a grant is a replay of: of its key, or else of its id. -/
def MemoryGrantLotLedger.existingGrant (s : MemoryGrantLotLedger) (input : GrantLotGrantInput)
    (grantKey : String) : Option GrantLot :=
  s.lots.find? (fun lot =>
    lot.workspaceId == input.workspaceId && lot.grantIdempotencyKey == some grantKey) <|>
  s.findLot input.workspaceId input.id

/-- The lot is the one asked for again. -/
def sameGrantLotFacts (existing : GrantLot) (input : GrantLotGrantInput) (grantKey : String) :
    Bool :=
  existing.resource = input.resource ∧ existing.originalAmount = input.amount ∧
    expirationIsSameOrShorter host existing.expirationDate input.expirationDate ∧
    existing.transactionType = input.transactionType ∧ existing.sourceRef = input.sourceRef ∧
    existing.createdAt = input.createdAt ∧ existing.supplyPoolId = input.supplyPoolId ∧
    existing.grantSource = input.grantSource ∧
    (existing.grantIdempotencyKey = none ∨ existing.grantIdempotencyKey = some grantKey)

/-- A lot is granted; the same grant again is answered with it. -/
def grantLot (input : GrantLotGrantInput) : GrantLotM GrantLot := do
  check (assertGrantLotGrantInput host input)
  let grantKey ← check (normalizeGrantIdempotencyKey input.id input.grantIdempotencyKey)
  let s ← get
  match s.existingGrant input grantKey with
  | some existing =>
    if sameGrantLotFacts host existing input grantKey then pure existing
    else throw (.domain .IDEMPOTENCY_CONFLICT
      ("Grant lot " ++ input.id ++ " already exists with different facts."))
  | none => do
    set ({ s with lots := s.lots ++ [openedGrantLot input grantKey] }.push
      (grantLotTransaction input grantKey))
    pure (openedGrantLot input grantKey)

/-! ### Repair and expiry -/

/-- The lots whose usage is reckoned together: those of one period of a resource, or one lot. -/
inductive GrantLotCohort
  | period (resource : GrantLotResource) (expiresAt : Option Int)
  | lot (id : String)
  deriving DecidableEq

/-- Lots that are charged together. -/
def GrantLot.cohort (lot : GrantLot) : GrantLotCohort :=
  match lot.expirationDate with
  | some date =>
    if lot.transactionType = .REGISTER_GIFT ∨ lot.transactionType = .SUBSCRIPTION_RENEWAL then
      .period lot.resource (host.dateParse date)
    else .lot lot.id
  | none => .lot lot.id

/-- The lots by cohort, in the order they are met. -/
def groupGrantLotCohorts (lots : List GrantLot) : List (List GrantLot) :=
  (lots.foldl (fun (groups : OrderedMap GrantLotCohort (List GrantLot)) lot =>
    groups.set (lot.cohort host) ((groups.get? (lot.cohort host)).getD [] ++ [lot])) .empty).values

/-- What a transaction adds to the usage of its lot. -/
def GrantLotTransaction.usage (t : GrantLotTransaction) : Int :=
  match t.transactionType with
  | .USAGE => t.amount
  | .REFUND => - t.amount
  | _ => 0

/-- The lots of a cohort in turn, each left what the usage before it leaves. -/
def rebuildEach (usageDebt : Int) : List GrantLot → GrantLotM Unit
  | [] => pure ()
  | lot :: lots => do
    let repaired := max 0 (lot.cap - usageDebt)
    if lot.remainingAmount ≠ repaired then
      modify fun s => s.amend lot.workspaceId lot.id fun lot =>
        { lot with remainingAmount := repaired, revision := some lot.nextRevision }
      rebuildEach (max 0 (usageDebt - lot.cap)) lots
    else rebuildEach (max 0 (usageDebt - lot.cap)) lots

def rebuildCohorts (transactions : List GrantLotTransaction) :
    List (List GrantLot) → GrantLotM Unit
  | [] => pure ()
  | cohort :: cohorts => do
    let netUsage := tally (·.usage)
      (transactions.filter fun t => cohort.any fun lot => lot.id = t.lotId)
    rebuildEach (max 0 netUsage) (sortBy (compareGrantLotsForFifo host) cohort)
    rebuildCohorts transactions cohorts

/-- What is left of each lot, from the rows. -/
def rebuildWorkspaceRemaining (workspaceId : String) : GrantLotM Unit := do
  let s ← get
  rebuildCohorts host (s.transactions.filter (·.workspaceId == workspaceId))
    (groupGrantLotCohorts host (s.listLots workspaceId))

def grantLotExpiry (input : GrantLotExpiryInput) (lot : GrantLot) : GrantLotTransaction where
  id := "tx-expire-" ++ lot.id ++ "-" ++ toString lot.nextRevision
  workspaceId := input.workspaceId
  resource := lot.resource
  transactionType := .EXPIRE
  amount := lot.remainingAmount
  lotId := lot.id
  operationId := some ("expire:" ++ lot.id ++ ":" ++ toString lot.nextRevision)
  actorId := input.actorId
  correlationId := input.correlationId
  createdAt := input.now

def expireGrantLotsEach (input : GrantLotExpiryInput) :
    List GrantLot → GrantLotM (List GrantLotTransaction)
  | [] => pure []
  | lot :: lots => do
    modify fun s => s.amend lot.workspaceId lot.id fun lot =>
      { lot with
        remainingAmount := 0, entitlementAmount := some 0, revision := some lot.nextRevision }
    if lot.remainingAmount = 0 then expireGrantLotsEach input lots
    else do
      modify fun s => s.push (grantLotExpiry input lot)
      let expired ← expireGrantLotsEach input lots
      pure (grantLotExpiry input lot :: expired)

/-- The lots whose time is over lose what is left of them. -/
def expireGrantLots (input : GrantLotExpiryInput) : GrantLotM (List GrantLotTransaction) := do
  check (assertIsoTimestamp host input.now "now")
  let s ← get
  expireGrantLotsEach input (sortBy (compareGrantLotsForFifo host) (s.lots.filter fun lot =>
    lot.workspaceId == input.workspaceId && lot.dueAt host input.now && 0 < lot.cap))

/-! ### Consumption and refunds -/

def grantLotUsage (input : GrantLotConsumeInput) (consumeKey : String) (index : Nat)
    (allocation : String × Int) : GrantLotTransaction where
  id := indexed consumeKey index
  workspaceId := input.workspaceId
  resource := input.resource
  transactionType := .USAGE
  amount := allocation.2
  lotId := allocation.1
  operationId := some consumeKey
  actorId := input.actorId
  correlationId := input.correlationId
  createdAt := input.createdAt

/-- The lot with an amount taken from it. -/
def GrantLot.charged (lot : GrantLot) (amount : Int) : GrantLot :=
  { lot with
    remainingAmount := lot.remainingAmount - amount, revision := some lot.nextRevision }

/-- The allocations of a workspace charged in turn, each with a USAGE row; one whose lot is missing
is skipped. -/
def chargeGrantLots (workspaceId : String) (usage : Nat → String × Int → GrantLotTransaction) :
    Nat → List (String × Int) → GrantLotM (List GrantLotTransaction)
  | _, [] => pure []
  | index, allocation :: allocations => do
    let s ← get
    match s.findLot workspaceId allocation.1 with
    | none => chargeGrantLots workspaceId usage (index + 1) allocations
    | some _ => do
      set ((s.amend workspaceId allocation.1 (·.charged allocation.2)).push
        (usage index allocation))
      let written ← chargeGrantLots workspaceId usage (index + 1) allocations
      pure (usage index allocation :: written)

/-- An amount is taken from the lots, the first to expire first. -/
def consumeGrantLots (input : GrantLotConsumeInput) : GrantLotM (List GrantLotTransaction) := do
  check (if input.amount ≤ 0 then
      throw (.domain .INVALID_STATE "Usage amount must be a positive integer.")
    else pure ())
  check (assertIsoTimestamp host input.createdAt "createdAt")
  let consumeKey ← check (normalizeConsumeIdempotencyKey input.transactionId)
  let s ← get
  check ((s.listLots input.workspaceId).forM fun lot =>
    match lot.grantIdempotencyKey with
    | some grantKey => assertIndependentGrantConsumeIdempotencyKeys grantKey consumeKey
    | none => pure ())
  let replay := s.transactions.filter fun t => t.workspaceId == input.workspaceId &&
    t.transactionType == .USAGE && t.operationId == some consumeKey
  if replay ≠ [] then
    if tally (·.amount) replay ≠ input.amount ∨ replay.any fun t => t.resource ≠ input.resource then
      throw (.domain .IDEMPOTENCY_CONFLICT "Usage operation was replayed with different facts.")
    else pure replay
  else do
    let opened := s.lots.filter fun lot => lot.workspaceId == input.workspaceId &&
      lot.resource == input.resource && 0 < lot.remainingAmount && lot.openAt host input.createdAt
    let _ ← expireGrantLots host
      ⟨input.workspaceId, input.createdAt, input.actorId, input.correlationId⟩
    let s ← get
    -- the lots found before the expiry, as the expiry leaves them
    let allocations := allocateFifoConsumption host
      (opened.filterMap fun lot => s.findLot lot.workspaceId lot.id) input.amount
    if tally (·.2) allocations ≠ input.amount then
      throw (.domain .INSUFFICIENT_ENTITLEMENT
        ("Insufficient " ++ input.resource.text ++ " allowance."))
    else chargeGrantLots input.workspaceId (grantLotUsage input consumeKey) 0 allocations

def grantLotRefund (input : GrantLotRefundInput) (usage : GrantLotTransaction) (amount : Int) :
    GrantLotTransaction where
  id := input.refundTransactionId
  workspaceId := input.workspaceId
  resource := usage.resource
  transactionType := .REFUND
  amount := amount
  lotId := usage.lotId
  relatedTransactionId := some usage.id
  operationId := some input.refundTransactionId
  actorId := input.actorId
  correlationId := input.correlationId
  createdAt := input.createdAt

/-- A usage row is given back, in part or whole. -/
def refundGrantLotUsage (input : GrantLotRefundInput) : GrantLotM (Option GrantLotTransaction) := do
  check (assertIsoTimestamp host input.createdAt "createdAt")
  let s ← get
  match s.transactions.find? (fun t => t.workspaceId == input.workspaceId &&
      t.transactionType == .REFUND && t.relatedTransactionId == some input.usageTransactionId),
    s.transactions.find? (fun t => t.id == input.usageTransactionId &&
      t.workspaceId == input.workspaceId && t.transactionType == .USAGE) with
  | some already, _ => pure (some already)
  | none, none => pure none
  | none, some usage =>
    if (s.findLot input.workspaceId usage.lotId).isNone then pure none
    else do
      let amount := input.amount.getD usage.amount
      check (if amount ≤ 0 ∨ amount > usage.amount then
          throw (.domain .INVALID_STATE
            "Grant lot refund amount must be within the usage transaction.")
        else pure ())
      check (if s.transactions.any fun t => t.workspaceId == input.workspaceId &&
            t.id == input.refundTransactionId then
          throw (.domain .IDEMPOTENCY_CONFLICT
            ("Grant transaction " ++ input.refundTransactionId ++ " already exists."))
        else pure ())
      set (s.push (grantLotRefund input usage amount))
      rebuildWorkspaceRemaining host input.workspaceId
      let _ ← expireGrantLots host
        ⟨input.workspaceId, input.createdAt, input.actorId, input.correlationId⟩
      pure (some (grantLotRefund input usage amount))

/-- The usages of an operation refunded in turn; `remaining` is what is left of the amount asked
for, `none` when the whole operation is refunded. -/
def refundGrantLotEach (input : GrantLotRefundOperationInput) :
    Option Int → Nat → List GrantLotTransaction →
      GrantLotM (List GrantLotTransaction × Option Int)
  | remaining, _, [] => pure ([], remaining)
  | remaining, index, usage :: usages =>
    if remaining = some 0 then pure ([], remaining)
    else do
      let refund ← refundGrantLotUsage host {
        workspaceId := input.workspaceId
        usageTransactionId := usage.id
        refundTransactionId := indexed input.refundOperationId index
        amount := some (remaining.elim usage.amount (min usage.amount))
        actorId := input.actorId
        correlationId := input.correlationId
        createdAt := input.createdAt }
      let (refunds, left) ← refundGrantLotEach input
        (remaining.map (· - (refund.elim 0 (·.amount)))) (index + 1) usages
      pure (refund.toList ++ refunds, left)

/-- The rows of a usage are given back, up to an amount. -/
def refundGrantLotOperation (input : GrantLotRefundOperationInput) :
    GrantLotM (List GrantLotTransaction) := do
  check (if input.amount.any (· ≤ 0) then
      throw (.domain .INVALID_STATE "Refund amount must be a positive integer.")
    else pure ())
  let s ← get
  let (refunds, left) ← refundGrantLotEach host input input.amount 0
    (s.transactions.filter fun t => t.workspaceId == input.workspaceId &&
      t.transactionType == .USAGE && t.operationId == some input.usageOperationId)
  if left.any (· ≠ 0) then
    throw (.domain .INVALID_STATE "Refund amount exceeds the usage operation.")
  else pure refunds

/-! ### Reconciliation -/

/-- The expiry of the selected lots shortened. -/
def shortenGrantLots (input : GrantLotEntitlementReconciliationInput) :
    List GrantLot → GrantLotM Unit
  | [] => pure ()
  | lot :: lots => do
    modify fun s => s.amend lot.workspaceId lot.id fun lot =>
      if lot.expirationDate.all fun date =>
          Num.gt (host.dateParse date) (host.dateParse input.expirationDate) then
        { lot with
          expirationDate := some input.expirationDate, revision := some lot.nextRevision }
      else lot
    shortenGrantLots input lots

def grantLotReduction (input : GrantLotEntitlementReconciliationInput) (index : Nat)
    (lotId : String) (amount : Int) : GrantLotTransaction where
  id := indexed input.operationId index
  workspaceId := input.workspaceId
  resource := input.resource
  transactionType := .EXPIRE
  amount := amount
  lotId := lotId
  operationId := some input.operationId
  actorId := input.actorId
  correlationId := input.correlationId
  createdAt := input.asOf

/-- The selected lots reduced in turn, newest first; `written` counts the rows written. -/
def reduceGrantLots (input : GrantLotEntitlementReconciliationInput) :
    Int → Nat → List GrantLot → GrantLotM (List GrantLotTransaction)
  | _, _, [] => pure []
  | amountToReduce, written, selected :: lots =>
    if amountToReduce = 0 then pure []
    else do
      let s ← get
      -- a lot selected twice is read as the first pass over it leaves it
      let lot := (s.findLot selected.workspaceId selected.id).getD selected
      let capReduction := min amountToReduce lot.cap
      let amount := min lot.remainingAmount capReduction
      set (s.amend lot.workspaceId lot.id fun lot =>
        { lot with
          entitlementAmount := some (lot.cap - capReduction)
          remainingAmount := lot.remainingAmount - amount
          revision := some lot.nextRevision })
      if amount = 0 then reduceGrantLots input (amountToReduce - capReduction) written lots
      else do
        modify fun s => s.push (grantLotReduction input written lot.id amount)
        let rows ← reduceGrantLots input (amountToReduce - capReduction) (written + 1) lots
        pure (grantLotReduction input written lot.id amount :: rows)

/-- The newest lot first. -/
def compareNewestFirst (left right : GrantLot) : Option Int :=
  let created := Num.sub (host.dateParse right.createdAt) (host.dateParse left.createdAt)
  if created ≠ some 0 then created else some (host.localeCompare right.id left.id)

/-- The lots an input selects, in the order it names them. -/
def selectedGrantLots (s : MemoryGrantLotLedger) (input : GrantLotEntitlementReconciliationInput) :
    List GrantLot :=
  input.lotIds.filterMap fun lotId => s.lots.find? fun lot =>
    lot.workspaceId == input.workspaceId && lot.resource == input.resource && lot.id == lotId

/-- The lots of an entitlement are shortened, and lowered to its target. -/
def reconcileEntitlementLots (input : GrantLotEntitlementReconciliationInput) :
    GrantLotM (List GrantLotTransaction) := do
  check (assertGrantLotEntitlementReconciliationInput host input)
  let s ← get
  shortenGrantLots host input (selectedGrantLots s input)
  let s ← get
  let replay := s.transactions.filter fun t => t.workspaceId == input.workspaceId &&
    t.transactionType == .EXPIRE && t.operationId == some input.operationId
  if replay ≠ [] then do
    rebuildWorkspaceRemaining host input.workspaceId
    pure replay
  else do
    let selected := selectedGrantLots s input
    let effectiveTarget :=
      if Num.le (host.dateParse input.expirationDate) (host.dateParse input.asOf) then 0
      else input.targetAmount
    let rows ← reduceGrantLots input (max 0 (tally (·.cap) selected - effectiveTarget)) 0
      (sortBy (compareNewestFirst host) selected)
    rebuildWorkspaceRemaining host input.workspaceId
    pure rows

/-! ### The projection -/

/-- The sums of a resource. -/
def grantLotProjection (s : MemoryGrantLotLedger) (workspaceId : String)
    (resource : GrantLotResource) : GrantLotProjection :=
  let transactions := s.transactions.filter fun t =>
    t.workspaceId == workspaceId && t.resource == resource
  let amountFor (passes : GrantLotTransactionType → Bool) :=
    tally (·.amount) (transactions.filter fun t => passes t.transactionType)
  { resource
    grantedAmount := amountFor fun type => type ≠ .USAGE ∧ type ≠ .REFUND ∧ type ≠ .EXPIRE
    usedAmount := amountFor (· = .USAGE)
    refundedAmount := amountFor (· = .REFUND)
    expiredAmount := amountFor (· = .EXPIRE)
    remainingAmount := tally (·.remainingAmount)
      (s.lots.filter fun lot => lot.workspaceId == workspaceId && lot.resource == resource) }

/-- The resources of a workspace, in the order of their texts. -/
def grantLotResources (s : MemoryGrantLotLedger) (workspaceId : String) : List GrantLotResource :=
  [.audio, .copy, .image, .video].filter fun resource =>
    (s.listLots workspaceId).any fun lot => lot.resource = resource

def rebuildGrantLotProjection (input : GrantLotExpiryInput) :
    GrantLotM (List GrantLotProjection) := do
  check (assertIsoTimestamp host input.now "asOf")
  rebuildWorkspaceRemaining host input.workspaceId
  let _ ← expireGrantLots host input
  let s ← get
  pure ((grantLotResources s input.workspaceId).map (grantLotProjection s input.workspaceId))

/-! ### The migration of a legacy balance -/

/-- The lots that mirror the legacy balance: all but those of redemption codes. -/
def GrantLot.mirrors (workspaceId : String) (resource : GrantLotResource) (lot : GrantLot) : Bool :=
  lot.workspaceId == workspaceId && lot.resource == resource &&
    lot.transactionType != .REDEMPTION_CODE

/-- What the mirrored lots hold of a resource. -/
def MemoryGrantLotLedger.mirroredRemaining (s : MemoryGrantLotLedger) (workspaceId : String)
    (resource : GrantLotResource) : Int :=
  tally (·.remainingAmount) (s.lots.filter (·.mirrors workspaceId resource))

def legacyUsage (input : LegacyGrantLotMigrationInput) (index : Nat) (allocation : String × Int) :
    GrantLotTransaction :=
  let operationId :=
    "legacy-usage-migration:" ++ input.resource.text ++ ":" ++ input.legacySnapshotId
  { id := indexed operationId index
    workspaceId := input.workspaceId
    resource := input.resource
    transactionType := .USAGE
    amount := allocation.2
    lotId := allocation.1
    operationId := some operationId
    actorId := "system-legacy-grant-migration"
    correlationId := "legacy-grant-migration:" ++ input.workspaceId
    createdAt := input.asOf }

/-- The grant of what the mirrored lots miss. -/
def missingBalanceGrant (input : LegacyGrantLotMigrationInput) (missingBalance : Int) :
    GrantLotGrantInput where
  id := input.balanceLotId
  workspaceId := input.workspaceId
  resource := input.resource
  amount := missingBalance
  expirationDate := none
  transactionType := .PURCHASE_PACKAGE
  sourceRef := some ("legacy-usage-balance:" ++ input.resource.text ++ ":v1")
  actorId := some "system-legacy-grant-migration"
  correlationId := some ("legacy-grant-migration:" ++ input.workspaceId)
  createdAt := input.createdAt

/-- The operation, its lots and transactions put back when it throws. -/
def restoring (x : GrantLotM Unit) : GrantLotM Unit := fun s =>
  match x s with
  | .ok u s' => .ok u s'
  | .error e s' => .error e { s' with lots := s.lots, transactions := s.transactions }

/-- The body of the migration's `try`. -/
def migrateBalance (input : LegacyGrantLotMigrationInput) : GrantLotM Unit := do
  let s ← get
  let mirroredLots := s.lots.filter (·.mirrors input.workspaceId input.resource)
  let mirroredRemaining := s.mirroredRemaining input.workspaceId input.resource
  let historicalUsage := max 0 (mirroredRemaining - input.legacyAvailable)
  if historicalUsage > 0 then do
    let _ ← chargeGrantLots input.workspaceId (legacyUsage input) 0
      (allocateFifoConsumption host mirroredLots historicalUsage)
    markLegacyBalanceMigrated host input.workspaceId input.resource input.asOf
  else
    let missingBalance := max 0 (input.legacyAvailable - mirroredRemaining)
    if missingBalance > 0 then do
      let _ ← grantLot host (missingBalanceGrant input missingBalance)
      markLegacyBalanceMigrated host input.workspaceId input.resource input.asOf
    else markLegacyBalanceMigrated host input.workspaceId input.resource input.asOf

/-- A balance of the old form becomes a lot, with its usage. -/
def migrateLegacyBalance (input : LegacyGrantLotMigrationInput) : GrantLotM Unit := do
  let s ← get
  if s.isLegacyBalanceMigrated input.workspaceId input.resource then pure ()
  else do
    check (if input.legacyAvailable < 0 then
        throw (.domain .INVALID_STATE
          "Legacy available balance must be a non-negative integer.")
      else pure ())
    check (assertIsoTimestamp host input.createdAt "createdAt")
    check (assertIsoTimestamp host input.asOf "asOf")
    restoring (migrateBalance host input)

/-! ## Runs -/

/-- A call on the ledger. -/
inductive GrantLotCall
  | grant (input : GrantLotGrantInput)
  | consume (input : GrantLotConsumeInput)
  | refundUsage (input : GrantLotRefundInput)
  | refundUsageOperation (input : GrantLotRefundOperationInput)
  | reconcileEntitlementLots (input : GrantLotEntitlementReconciliationInput)
  | expireLots (input : GrantLotExpiryInput)
  | rebuildProjection (input : GrantLotExpiryInput)
  | markLegacyBalanceMigrated (workspaceId : String) (resource : GrantLotResource)
      (completedAt : String)
  | migrateLegacyBalance (input : LegacyGrantLotMigrationInput)
  deriving DecidableEq

/-- The ledger after a call, returned or thrown. -/
def GrantLotCall.step (s : MemoryGrantLotLedger) : GrantLotCall → MemoryGrantLotLedger
  | .grant input => final (grantLot host input) s
  | .consume input => final (consumeGrantLots host input) s
  | .refundUsage input => final (refundGrantLotUsage host input) s
  | .refundUsageOperation input => final (refundGrantLotOperation host input) s
  | .reconcileEntitlementLots input => final (MeiyeAgent.reconcileEntitlementLots host input) s
  | .expireLots input => final (expireGrantLots host input) s
  | .rebuildProjection input => final (rebuildGrantLotProjection host input) s
  | .markLegacyBalanceMigrated workspaceId resource completedAt =>
    final (MeiyeAgent.markLegacyBalanceMigrated host workspaceId resource completedAt) s
  | .migrateLegacyBalance input => final (MeiyeAgent.migrateLegacyBalance host input) s

/-- **A run of the ledger**: any calls on an empty ledger. -/
def runGrantLots (calls : List GrantLotCall) : MemoryGrantLotLedger :=
  runAll (GrantLotCall.step host) calls .empty

end MeiyeAgent
