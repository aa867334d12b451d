import MeiyeAgent.Harness.SettlementObjects

/-!
# Harness/CarrierSettlements — the receipts of the carriers, and the settlement of their work

Each carrier of a work ends on its own and leaves a receipt.  Once every carrier frozen at admission
has one, the receipts are reduced to the one settlement of the work, which goes to an outbox in the
same transaction.  Whoever made the settlement marks the work settled; recovery workers take what
was left in the outbox under a token and a lease.

* `reduceCarrierReceiptsForWork` — the settlement that receipts add up to.
* `recordCarrierTerminal`, `markWorkSettled`, `claimReadyWorkSettlements`,
  `markWorkSettlementFailed` — the operations on the three tables.
* `step` — the tables after an event of a run.
-/

namespace MeiyeAgent

open Effect

/-! ## Rows -/

structure ReadyWorkSettlement where
  aggregateKey : String
  action : CarrierTerminalAction
  settlement : HarnessBillingSettlementInput
  deriving DecidableEq

structure ClaimedReadyWorkSettlement extends ReadyWorkSettlement where
  claimToken : String
  deriving DecidableEq

inductive WorkStatus
  | collecting
  | ready
  | settled
  deriving DecidableEq, Repr

/-- A row of `billing_work_settlements`, under its workspace and aggregate key. -/
structure WorkSettlementRow where
  billingTaskId : String
  workId : String
  quoteId : String
  quoteRevision : String
  reservationId : String
  carrierUnitIds : List String
  status : WorkStatus := .collecting
  payload : Option ReadyWorkSettlement := none
  deriving DecidableEq

/-- A row of `billing_carrier_receipts`, under its workspace and settlement key. -/
structure CarrierReceiptRow where
  aggregateKey : String
  carrierUnitId : String
  action : CarrierTerminalAction
  fingerprint : String
  payload : HarnessBillingSettlementInput
  deriving DecidableEq

inductive OutboxStatus
  | pending
  | processing
  | completed
  deriving DecidableEq, Repr

/-- A row of `billing_work_settlement_outbox`; its instants count microseconds. -/
structure OutboxRow where
  action : CarrierTerminalAction
  payload : ReadyWorkSettlement
  status : OutboxStatus
  attempts : Nat
  nextAttemptAt : Int
  claimToken : Option String
  leaseExpiresAt : Option Int
  createdAt : Int
  deriving DecidableEq

/-- The row a settlement that became ready enters the outbox with. -/
def OutboxRow.fresh (now : Int) (ready : ReadyWorkSettlement) : OutboxRow where
  action := ready.action
  payload := ready
  status := .pending
  attempts := 0
  nextAttemptAt := now
  claimToken := none
  leaseExpiresAt := none
  createdAt := now

/-- A workspace, and a key in it. -/
abbrev WorkKey := String × String

structure CarrierCoordinator where
  works : OrderedMap WorkKey WorkSettlementRow
  receipts : OrderedMap WorkKey CarrierReceiptRow
  outbox : OrderedMap WorkKey OutboxRow
  deriving DecidableEq

/-- **The host of the coordinator**: the database orders texts by a collation of its own. -/
structure CarrierHost extends SettlementHost where
  collates : String → String → Bool
  collates_total : ∀ a b, collates a b ∨ collates b a
  collates_trans : ∀ a b c, collates a b → collates b c → collates a c
  collates_antisymm : ∀ a b, collates a b → collates b a → a = b

/-- **The host of concrete runs**: the digest is the text itself, `jsonb` writes the fields in the
order of their type, and texts collate by code unit. -/
def plainHost : CarrierHost where
  numberText := fractionText
  numberText_injective := fractionText_injective
  digest := Json.stringify
  jsonb input := writeFields (Form.settlementFields fractionText fractionText_injective) input
  jsonb_writes input := (Form.settlement fractionText fractionText_injective).writes_write input
  collates a b := TextLe a b
  collates_total a b := by
    simp only [decide_eq_true_eq]
    exact le_total (codeUnits a) (codeUnits b)
  collates_trans a b c hab hbc := by
    simp only [decide_eq_true_eq] at hab hbc ⊢
    exact le_trans hab hbc
  collates_antisymm a b hab hba := by
    simp only [decide_eq_true_eq] at hab hba
    exact codeUnits_inj.mp (le_antisymm hab hba)

/-! ## Reducing receipts -/

/-- The receipts by carrier, in their order. -/
def collectByCarrier (expectedCarrierUnitIds : List String) :
    List CarrierReceiptRow → OrderedMap String CarrierReceiptRow →
      Except BillingThrown (OrderedMap String CarrierReceiptRow)
  | [], byCarrier => pure byCarrier
  | receipt :: receipts, byCarrier =>
    match optionalOperation receipt.payload.billingIdentity.carrierUnitId with
    | none => throw (.error "Carrier receipt is missing its frozen carrier unit id.")
    | some carrier =>
      if carrier ∉ expectedCarrierUnitIds ∨ (byCarrier.get? carrier).isSome then
        throw (.error "Carrier receipt set does not match the frozen aggregate membership.")
      else collectByCarrier expectedCarrierUnitIds receipts (byCarrier.set carrier receipt)

/-- A receipt has the facts of the first. -/
def assertCombinable (expectedCarrierUnitIds : List String)
    (canonical settlement : HarnessBillingSettlementInput) : Except BillingThrown Unit := do
  let identity := settlement.billingIdentity
  let thrown := BillingThrown.error
    "Carrier receipt facts cannot be combined into one Work settlement."
  if settlement.workspaceId ≠ canonical.workspaceId ∨
      settlement.billingTaskId ≠ canonical.billingTaskId ∨
      identity.workId ≠ canonical.billingIdentity.workId ∨
      settlement.quoteId ≠ canonical.quoteId ∨
      settlement.quoteRevision ≠ canonical.quoteRevision ∨
      identity.reservationId ≠ canonical.billingIdentity.reservationId then
    throw thrown
  let fingerprint ← identity.billingIdentityReservationFingerprint
  let canonicalFingerprint ← canonical.billingIdentity.billingIdentityReservationFingerprint
  if fingerprint ≠ canonicalFingerprint then throw thrown
  let units ← identity.frozenCarrierUnits
  if units ≠ expectedCarrierUnitIds ∨
      identity.packageBilling ≠ canonical.billingIdentity.packageBilling then
    throw thrown

/-- The allocation a receipt of a package is for. -/
def receiptAllocation (frozenAllocationIds : List String) (receipt : CarrierReceiptRow) :
    Except BillingThrown ExecutionPlanPackageBillingAllocation := do
  if receipt.payload.packagePartialDelivery.isSome then
    throw (.error "Carrier receipts must not carry an aggregate package partial delivery basis.")
  match ← receipt.payload.billingIdentity.billingPackageAllocation with
  | none => throw (.error "Package carrier receipt is missing its frozen allocation.")
  | some allocation =>
    if allocation.allocationId ∉ frozenAllocationIds then
      throw (.error "Package carrier receipt allocation is outside the frozen contract.")
    else pure allocation

/-- The units a receipt proves delivered: none when it is a refund. -/
def receiptUnits (receipt : CarrierReceiptRow)
    (allocation : ExecutionPlanPackageBillingAllocation) : Int :=
  match receipt.action with
  | .refund => 0
  | .commit =>
    (receipt.payload.partialDelivery.map (·.deliveredUnits)).getD allocation.deliveryUnits

def assertReceiptUnits (receipt : CarrierReceiptRow)
    (allocation : ExecutionPlanPackageBillingAllocation) : Except BillingThrown Unit := do
  let partialDelivery := receipt.payload.partialDelivery
  if partialDelivery.any fun basis => basis.totalUnits ≠ allocation.deliveryUnits ∨
      ¬ isSafeInteger basis.deliveredUnits ∨ basis.deliveredUnits < 0 ∨
      basis.deliveredUnits > allocation.deliveryUnits then
    throw (.error
      "Package carrier partial delivery must use its exact frozen allocation units.")
  if receipt.action = .refund ∧ partialDelivery.any fun basis => basis.deliveredUnits ≠ 0 then
    throw (.error "Refunded package carrier receipts cannot claim delivered units.")

/-- The delivered units by allocation. -/
def collectDeliveredUnits (frozenAllocationIds : List String) :
    List CarrierReceiptRow → OrderedMap String Int →
      Except BillingThrown (OrderedMap String Int)
  | [], delivered => pure delivered
  | receipt :: receipts, delivered => do
    let allocation ← receiptAllocation frozenAllocationIds receipt
    if (delivered.get? allocation.allocationId).isSome then
      throw (.error "Package carrier receipts duplicate a frozen allocation.")
    assertReceiptUnits receipt allocation
    collectDeliveredUnits frozenAllocationIds receipts
      (delivered.set allocation.allocationId (receiptUnits receipt allocation))

/-- The evidence of one allocation. -/
def deliveredAllocation (delivered : OrderedMap String Int)
    (allocation : ExecutionPlanPackageBillingAllocation) :
    Except BillingThrown DeliveredAllocation :=
  match delivered.get? allocation.allocationId with
  | none => throw (.error
      "Package carrier receipts are missing frozen allocation evidence.")
  | some deliveredUnits => pure ⟨allocation.allocationId, deliveredUnits⟩

/-- A work is paid for as soon as something was delivered. -/
def packageAction (allocations : List DeliveredAllocation) : CarrierTerminalAction :=
  if allocations.any (0 < ·.deliveredUnits) then .commit else .refund

def reducePackageCarrierReceiptsForWork (aggregateKey : String)
    (receipts : List CarrierReceiptRow) (canonical : HarnessBillingSettlementInput) :
    Except BillingThrown ReadyWorkSettlement :=
  match canonical.billingIdentity.packageBilling with
  | none => throw (.error "Package receipt reducer requires a frozen package contract.")
  | some packageBilling => do
    let frozenAllocationIds := packageBilling.allocations.map (·.allocationId)
    let delivered ← collectDeliveredUnits frozenAllocationIds receipts .empty
    if delivered.entries.length ≠ frozenAllocationIds.dedup.length then
      throw (.error
        "Package carrier receipts do not cover every frozen allocation exactly once.")
    let allocations ← packageBilling.allocations.mapM (deliveredAllocation delivered)
    let action := packageAction allocations
    return {
      aggregateKey
      action
      settlement := { canonical with
        trustedUsage := none
        partialDelivery := none
        packagePartialDelivery := some ⟨allocations⟩
        forceCreditRefund := some (action = .refund ∧
          receipts.any fun receipt => receipt.payload.forceCreditRefund = some true) } }

/-- Several receipts need a package; one stands for the work as it is. -/
def reduceCombined (aggregateKey : String) (carriers : Nat) (receipts : List CarrierReceiptRow)
    (first : CarrierReceiptRow) : Except BillingThrown (Option ReadyWorkSettlement) := do
  if carriers > 1 ∧ receipts.any (·.payload.trustedUsage.isSome) then
    throw (.error "Multi-carrier trusted usage requires a carrier-aware product quote reducer.")
  if carriers = 1 then
    return some ⟨aggregateKey, first.action, first.payload⟩
  if first.payload.billingIdentity.packageBilling = none then
    throw (.error "Multi-carrier settlement requires a frozen package billing contract.")
  some <$> reducePackageCarrierReceiptsForWork aggregateKey receipts first.payload

def reduceCarrierReceiptsForWork (aggregateKey : String) (expectedCarrierUnitIds : List String)
    (receipts : List CarrierReceiptRow) : Except BillingThrown (Option ReadyWorkSettlement) :=
  if receipts.length ≠ expectedCarrierUnitIds.length then pure none
  else do
    let byCarrier ← collectByCarrier expectedCarrierUnitIds receipts .empty
    if byCarrier.entries.length ≠ expectedCarrierUnitIds.length then return none
    match byCarrier.values with
    | [] => return none
    | first :: rest =>
      let _ ← (first :: rest).mapM fun receipt =>
        assertCombinable expectedCarrierUnitIds first.payload receipt.payload
      reduceCombined aggregateKey expectedCarrierUnitIds.length (first :: rest) first

/-! ## Recording a carrier -/

def assertCarrierSettlementInput (input : HarnessBillingSettlementInput) :
    Except BillingThrown Unit := do
  let identity := input.billingIdentity
  let _ ← identity.billingIdentityReservationFingerprint
  if identity.workspaceId ≠ input.workspaceId ∨ identity.workflowId ≠ input.taskId ∨
      identity.taskId ≠ input.billingTaskId ∨ identity.quoteRef.id ≠ input.quoteId ∨
      identity.quoteRef.revision ≠ input.quoteRevision then
    throw (.error "Carrier settlement input does not match its frozen identity.")
  let supplied := optionalOperation input.creditUsageOperationId
  if supplied.isSome ∧ supplied ≠ identity.creditUsageOperationId then
    throw (.error ("Carrier settlement credit usage operation does not match its frozen " ++
      "identity."))
  let _ ← identity.frozenCarrierUnits
  let _ ← identity.billingPackageAllocation

/-- What an identity says of the receipt and of the work it belongs to. -/
structure CarrierFacts where
  aggregateKey : String
  carrierUnitId : String
  carrierUnitIds : List String
  receiptKey : String
  reservationId : String
  deriving DecidableEq

def requireCarrierUnitId (identity : BillingIdentity) : Except BillingThrown String :=
  match optionalOperation identity.carrierUnitId with
  | none => throw (.error "Carrier settlement requires the frozen carrier unit id.")
  | some carrierUnitId => pure carrierUnitId

def carrierFacts (input : HarnessBillingSettlementInput) : Except BillingThrown CarrierFacts := do
  assertCarrierSettlementInput input
  let identity := input.billingIdentity
  let aggregateKey ← identity.workSettlementKey
  let carrierUnitId ← requireCarrierUnitId identity
  let carrierUnitIds ← identity.frozenCarrierUnits
  let receiptKey ← identity.settlementIdempotencyKey
  if input.settlementIdempotencyKey.getD receiptKey ≠ receiptKey then
    throw (.error "Carrier settlement idempotency key does not match its frozen identity.")
  let reservationId ← identity.billingIdentityReservationFingerprint
  return { aggregateKey, carrierUnitId, carrierUnitIds, receiptKey, reservationId }

/-- The digest of the action and the settlement, as its object writes it. -/
def carrierReceiptFingerprint {host : SettlementHost} (action : CarrierTerminalAction)
    (object : SettlementObject host) : String :=
  host.digest (.object [("action", .text action.name), ("settlement", .object object.body)])

namespace CarrierCoordinator

def empty : CarrierCoordinator := ⟨.empty, .empty, .empty⟩

def saveWork (key : WorkKey) (row : WorkSettlementRow) (store : CarrierCoordinator) :
    CarrierCoordinator :=
  { store with works := store.works.set key row }

def saveReceipt (key : WorkKey) (row : CarrierReceiptRow) (store : CarrierCoordinator) :
    CarrierCoordinator :=
  { store with receipts := store.receipts.set key row }

def saveOutbox (key : WorkKey) (row : OutboxRow) (store : CarrierCoordinator) :
    CarrierCoordinator :=
  { store with outbox := store.outbox.set key row }

def insertOrVerifyAggregate (input : HarnessBillingSettlementInput) (facts : CarrierFacts) :
    EStateM BillingThrown CarrierCoordinator Unit := do
  let store ← get
  let key := (input.workspaceId, facts.aggregateKey)
  match store.works.get? key with
  | none =>
    set (store.saveWork key {
      billingTaskId := input.billingTaskId
      workId := input.billingIdentity.workId
      quoteId := input.quoteId
      quoteRevision := input.quoteRevision
      reservationId := facts.reservationId
      carrierUnitIds := facts.carrierUnitIds })
  | some row =>
    if row.billingTaskId ≠ input.billingTaskId ∨ row.workId ≠ input.billingIdentity.workId ∨
        row.quoteId ≠ input.quoteId ∨ row.quoteRevision ≠ input.quoteRevision ∨
        row.reservationId ≠ facts.reservationId ∨
        sortTexts row.carrierUnitIds ≠ facts.carrierUnitIds then
      throw (.error "Carrier settlement aggregate does not match frozen identity facts.")

def insertOrVerifyReceipt (action : CarrierTerminalAction) (input : HarnessBillingSettlementInput)
    (facts : CarrierFacts) (fingerprint : String) :
    EStateM BillingThrown CarrierCoordinator Unit := do
  let store ← get
  let key := (input.workspaceId, facts.receiptKey)
  match store.receipts.get? key with
  | none =>
    set (store.saveReceipt key {
      aggregateKey := facts.aggregateKey
      carrierUnitId := facts.carrierUnitId
      action
      fingerprint
      payload := input })
  | some row =>
    if row.action ≠ action ∨ row.fingerprint ≠ fingerprint ∨
        row.aggregateKey ≠ facts.aggregateKey ∨ row.carrierUnitId ≠ facts.carrierUnitId then
      throw (.error "Carrier settlement receipt conflicts with its frozen idempotency key.")

variable (host : CarrierHost)

/-- The receipts of a work, `ORDER BY carrier_unit_id`. -/
def receiptsOf (store : CarrierCoordinator) (key : WorkKey) : List CarrierReceiptRow :=
  ((store.receipts.entries.filter fun e => e.1.1 = key.1 ∧ e.2.aggregateKey = key.2).map
    (·.2)).insertionSort fun a b => host.collates a.carrierUnitId b.carrierUnitId

/-- The work becomes ready, and its settlement goes to the outbox. -/
def saveReady (now : Int) (key : WorkKey) (row : WorkSettlementRow) (ready : ReadyWorkSettlement)
    (store : CarrierCoordinator) : CarrierCoordinator :=
  let store := store.saveWork key { row with status := .ready, payload := some ready }
  if (store.outbox.get? key).isSome then store
  else store.saveOutbox key (.fresh now ready)

/-- The settlement of a work that is ready. -/
def readyPayload (row : WorkSettlementRow) : Option ReadyWorkSettlement :=
  row.payload.filter fun _ => row.status = .ready

/-- What a recorded receipt makes of its work. -/
def settleIfComplete (now : Int) (key : WorkKey) (facts : CarrierFacts) :
    EStateM BillingThrown CarrierCoordinator (Option ReadyWorkSettlement) := do
  let store ← get
  match store.works.get? key with
  | none => throw (.error "Carrier settlement aggregate disappeared.")
  | some row =>
    if row.status = .settled then return none
    match readyPayload row with
    | some payload => return some payload
    | none =>
      match ← check (reduceCarrierReceiptsForWork facts.aggregateKey facts.carrierUnitIds
          (store.receiptsOf host key)) with
      | none => return none
      | some ready =>
        set (saveReady now key row ready store)
        return some ready

def recordCarrierTerminal (now : Int) (action : CarrierTerminalAction)
    (object : SettlementObject host.toSettlementHost) :
    EStateM BillingThrown CarrierCoordinator (Option ReadyWorkSettlement) := do
  let input := object.settlement
  let facts ← check (carrierFacts input)
  transaction do
    insertOrVerifyAggregate input facts
    insertOrVerifyReceipt action input facts (carrierReceiptFingerprint action object)
    settleIfComplete host now (input.workspaceId, facts.aggregateKey) facts

end CarrierCoordinator

/-! ## Settled works -/

/-- A completion: the aggregate key alone, or with its workspace and the token of a claim. -/
inductive WorkSettlementCompletion
  | key (aggregateKey : String)
  | claim (workspaceId aggregateKey : String) (claimToken : Option String)
  deriving DecidableEq

/-- The key of a completion's work, and the token it is fenced by. -/
def normalizeWorkSettlementCompletion :
    WorkSettlementCompletion → Except BillingThrown (WorkKey × Option String)
  | .key aggregateKey => do
    let workspaceId ← workspaceIdFromWorkSettlementKey aggregateKey
    return ((workspaceId, aggregateKey), none)
  | .claim workspaceId aggregateKey claimToken => do
    if Text.isBlank workspaceId ∨ Text.isBlank aggregateKey then
      throw (.error "Work settlement completion requires workspace and aggregate key.")
    let named ← workspaceIdFromWorkSettlementKey aggregateKey
    if named ≠ workspaceId then
      throw (.error "Work settlement completion workspace does not match aggregate key.")
    if claimToken.any (Text.isBlank ·) then
      throw (.error "Work settlement completion claim token is invalid.")
    return ((workspaceId, aggregateKey), claimToken)

structure ReadyWorkSettlementFailure where
  workspaceId : String
  aggregateKey : String
  claimToken : String
  /-- None when the date is invalid. -/
  retryAt : Option Int
  deriving DecidableEq

namespace OutboxRow

def complete (row : OutboxRow) : OutboxRow :=
  { row with status := .completed, claimToken := none, leaseExpiresAt := none }

def claim (now : Int) (claimToken : String) (leaseMs : Int) (row : OutboxRow) : OutboxRow :=
  { row with
    status := .processing
    attempts := row.attempts + 1
    claimToken := some claimToken
    leaseExpiresAt := some (now + leaseMs * 1000) }

/-- The row is claimed under the token. -/
def isClaimedBy (row : OutboxRow) (claimToken : String) : Bool :=
  row.status = .processing ∧ row.claimToken = some claimToken

/-- The row is due, or its lease has run out. -/
def isReady (now : Int) (row : OutboxRow) : Bool :=
  (row.status = .pending ∧ row.nextAttemptAt ≤ now) ∨
    (row.status = .processing ∧ row.leaseExpiresAt.any (· < now))

/-- `ORDER BY next_attempt_at, created_at`; the database orders ties as it likes. -/
def precedes (tie : WorkKey → Int) (e e' : WorkKey × OutboxRow) : Bool :=
  e.2.nextAttemptAt < e'.2.nextAttemptAt ∨ e.2.nextAttemptAt = e'.2.nextAttemptAt ∧
    (e.2.createdAt < e'.2.createdAt ∨ e.2.createdAt = e'.2.createdAt ∧ tie e.1 ≤ tie e'.1)

end OutboxRow

namespace CarrierCoordinator

/-- The outbox row of a work is completed: under its token, or, without one, whatever it is. -/
def completeOutbox (key : WorkKey) (claimToken : Option String) :
    EStateM BillingThrown CarrierCoordinator Unit := do
  let store ← get
  match claimToken, store.outbox.get? key with
  | some claimToken, some row =>
    if row.isClaimedBy claimToken then
      set (store.saveOutbox key row.complete)
    else if row.status ≠ .completed then
      throw (.error "Work settlement ready outbox claim was lost.")
  | some _, none => throw (.error "Work settlement ready outbox claim was lost.")
  | none, some row =>
    if row.status ≠ .completed then
      set (store.saveOutbox key row.complete)
  | none, none => pure ()

/-- A work that is ready is settled. -/
def settleWork (key : WorkKey) (store : CarrierCoordinator) : CarrierCoordinator :=
  match store.works.get? key with
  | some row =>
    if row.status = .ready then
      store.saveWork key { row with status := .settled }
    else store
  | none => store

/-- Without a token the first statement may come before the outbox row is there, and the second
after: then `early` is set, and the row is not completed. -/
def markWorkSettled (completion : WorkSettlementCompletion) (early : Bool) :
    EStateM BillingThrown CarrierCoordinator Unit := do
  let (key, claimToken) ← check (normalizeWorkSettlementCompletion completion)
  transaction do
    if claimToken.isSome ∨ ¬ early then completeOutbox key claimToken
    modify (settleWork key)

/-! ## Recovery -/

/-- The outbox rows a claim takes. -/
def candidates (store : CarrierCoordinator) (now : Int) (tie : WorkKey → Int) (limit : Nat) :
    List (WorkKey × OutboxRow) :=
  store.outbox.pick (fun e => (store.works.get? e.1).any (·.status = .ready) ∧ e.2.isReady now)
    (OutboxRow.precedes tie) limit

def assertReadyOutboxPayload (key : WorkKey) (payload : ReadyWorkSettlement) :
    Except BillingThrown ReadyWorkSettlement :=
  if payload.aggregateKey ≠ key.2 ∨ payload.settlement.workspaceId ≠ key.1 then
    throw (.error "Ready work settlement outbox payload does not match its row.")
  else pure payload

def claimReadyWorkSettlements (now : Int) (claimToken : String) (tie : WorkKey → Int)
    (limit : Int) (leaseMs : Option Int) :
    EStateM BillingThrown CarrierCoordinator (List ClaimedReadyWorkSettlement) := do
  if ¬ isSafeInteger limit ∨ limit < 1 then
    throw (.error "Ready work settlement claim requires a positive limit.")
  let leaseMs := leaseMs.getD 60000
  if ¬ isSafeInteger leaseMs ∨ leaseMs < 1 then
    throw (.error "Ready work settlement claim requires a positive lease.")
  let store ← get
  let claimed := (store.candidates now tie limit.toNat).map fun e =>
    (e.1, e.2.claim now claimToken leaseMs)
  set { store with outbox := store.outbox.setAll claimed }
  let payloads ← check (claimed.mapM fun e => assertReadyOutboxPayload e.1 e.2.payload)
  return payloads.map fun payload => { payload with claimToken }

def markWorkSettlementFailed (input : ReadyWorkSettlementFailure) :
    EStateM BillingThrown CarrierCoordinator Unit := do
  match input.retryAt with
  | none => throw (.error "Work settlement retry time is invalid.")
  | some retryAt =>
    let store ← get
    let key := (input.workspaceId, input.aggregateKey)
    match (store.outbox.get? key).filter (·.isClaimedBy input.claimToken) with
    | none => throw (.error "Work settlement ready outbox claim was lost.")
    | some row => set (store.saveOutbox key { row with
        status := .pending
        claimToken := none
        leaseExpiresAt := none
        nextAttemptAt := retryAt })

end CarrierCoordinator

/-! ## Runs -/

inductive CarrierCall (host : CarrierHost)
  | recordCarrierTerminal (action : CarrierTerminalAction)
      (object : SettlementObject host.toSettlementHost)
  | markWorkSettled (completion : WorkSettlementCompletion) (early : Bool)
  | claimReadyWorkSettlements (claimToken : String) (tie : WorkKey → Int) (limit : Int)
      (leaseMs : Option Int)
  | markWorkSettlementFailed (input : ReadyWorkSettlementFailure)

/-- **What happens**: a call, at the instant the database's clock shows. -/
structure CarrierEvent (host : CarrierHost) where
  now : Int
  call : CarrierCall host

namespace CarrierCoordinator

variable {host : CarrierHost}

/-- What a call hands out: the settlements of a claim. -/
def perform (now : Int) : CarrierCall host →
    EStateM BillingThrown CarrierCoordinator (List ClaimedReadyWorkSettlement)
  | .recordCarrierTerminal action object => do
    let _ ← recordCarrierTerminal host now action object
    return []
  | .markWorkSettled completion early => do
    markWorkSettled completion early
    return []
  | .claimReadyWorkSettlements claimToken tie limit leaseMs =>
    claimReadyWorkSettlements now claimToken tie limit leaseMs
  | .markWorkSettlementFailed input => do
    markWorkSettlementFailed input
    return []

/-- The tables an event leaves. -/
def step (store : CarrierCoordinator) (event : CarrierEvent host) : CarrierCoordinator :=
  final (perform event.now event.call) store

end CarrierCoordinator

end MeiyeAgent
