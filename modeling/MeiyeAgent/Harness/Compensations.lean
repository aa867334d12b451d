import MeiyeAgent.Harness.SettlementObjects

/-!
# Harness/Compensations — the queue of settlements still to be made

A settlement that could not be made at once is enqueued under its settlement key; workers claim
what is due and report how it ended.  A claim holds no token: after a minute the row may be claimed
again, and a report names the row by its action and key only.

* `enqueue`, `claimBatch`, `markCompleted`, `markFailed` — the four statements.
* `step` — the queue after an event of a run.
-/

namespace MeiyeAgent

open Effect

/-! ## The queue -/

inductive CompensationStatus
  | pending
  | processing
  | completed
  deriving DecidableEq, Repr

/-- A row, under its workspace and settlement key; its instants count microseconds. -/
structure CompensationRow where
  action : CarrierTerminalAction
  taskId : String
  billingTaskId : String
  payload : HarnessBillingSettlementInput
  status : CompensationStatus
  attempts : Nat
  nextAttemptAt : Int
  createdAt : Int
  updatedAt : Int
  deriving DecidableEq

/-- A workspace and a settlement key. -/
abbrev CompensationKey := String × String

structure CompensationQueue where
  rows : OrderedMap CompensationKey CompensationRow
  deriving DecidableEq

/-- What a call on the queue may throw; the database refuses a statement on its own. -/
inductive CompensationThrown
  | billing (thrown : BillingThrown)
  | conflict (taskId : String)
  | database (message : String)
  deriving DecidableEq, Repr

namespace HarnessBillingCompensationTask

/-- `settlementKey`. -/
def settlementKey (input : HarnessBillingCompensationTask) : Except CompensationThrown String :=
  input.billingIdentity.settlementIdempotencyKey.mapError .billing

def assertCompensationInputIdentity (input : HarnessBillingCompensationTask) :
    Except CompensationThrown Unit := do
  let identity := input.billingIdentity
  if identity.workspaceId ≠ input.workspaceId ∨ identity.workflowId ≠ input.taskId ∨
      identity.taskId ≠ input.billingTaskId ∨ identity.quoteRef.id ≠ input.quoteId ∨
      identity.quoteRef.revision ≠ input.quoteRevision then
    throw (.billing (.error "Billing compensation input does not match its frozen identity."))
  let supplied := optionalOperation input.creditUsageOperationId
  if supplied.isSome ∧ supplied ≠ identity.creditUsageOperationId then
    throw (.billing (.error ("Billing compensation credit usage operation does not match its " ++
      "frozen identity.")))

/-- What is kept of a task; a package's partial delivery is not. -/
def settlementPayload (input : HarnessBillingCompensationTask) (key : String) :
    HarnessBillingSettlementInput where
  workspaceId := input.workspaceId
  taskId := input.taskId
  billingTaskId := input.billingTaskId
  billingIdentity := input.billingIdentity
  settlementIdempotencyKey := some key
  quoteId := input.quoteId
  quoteRevision := input.quoteRevision
  creditUsageOperationId := input.creditUsageOperationId.filter (· ≠ "")
  trustedUsage := input.trustedUsage
  partialDelivery := input.partialDelivery
  forceCreditRefund := input.forceCreditRefund.filter (· = true)

end HarnessBillingCompensationTask

namespace CompensationRow

def oneMinute : Int := 60000000

/-- The row may be claimed: it is due, or its claim is older than a minute. -/
def isReady (now : Int) (row : CompensationRow) : Bool :=
  (row.status = .pending ∧ row.nextAttemptAt ≤ now) ∨
    (row.status = .processing ∧ row.updatedAt < now - oneMinute)

def claim (now : Int) (row : CompensationRow) : CompensationRow :=
  { row with status := .processing, attempts := row.attempts + 1, updatedAt := now }

/-- The task a claimed row is handed out as. -/
def task (row : CompensationRow) : HarnessBillingCompensationTask :=
  { row.payload with action := row.action, attempts := row.attempts }

/-- `ORDER BY next_attempt_at, created_at`; the database orders ties as it likes. -/
def precedes (tie : CompensationKey → Int) (e e' : CompensationKey × CompensationRow) : Bool :=
  e.2.nextAttemptAt < e'.2.nextAttemptAt ∨ e.2.nextAttemptAt = e'.2.nextAttemptAt ∧
    (e.2.createdAt < e'.2.createdAt ∨ e.2.createdAt = e'.2.createdAt ∧ tie e.1 ≤ tie e'.1)

end CompensationRow

namespace CompensationQueue

def empty : CompensationQueue := ⟨.empty⟩

/-- The rows a claim takes. -/
def ready (queue : CompensationQueue) (now : Int) (tie : CompensationKey → Int) (limit : Nat) :
    List (CompensationKey × CompensationRow) :=
  queue.rows.pick (·.2.isReady now) (CompensationRow.precedes tie) limit

variable (now : Int)

def enqueue (input : HarnessBillingCompensationTask) :
    EStateM CompensationThrown CompensationQueue Unit := do
  check input.assertCompensationInputIdentity
  let fenceKey ← check input.settlementKey
  let queue ← get
  match queue.rows.get? (input.workspaceId, fenceKey) with
  | some row => if row.action ≠ input.action then throw (.conflict fenceKey)
  | none =>
    -- the primary key of the table
    if queue.rows.entries.any fun e => e.2.action = input.action ∧ e.1.1 = input.workspaceId ∧
        e.2.taskId = input.taskId then
      throw (.database "duplicate key value violates unique constraint")
    set (CompensationQueue.mk (queue.rows.set (input.workspaceId, fenceKey)
      { action := input.action
        taskId := input.taskId
        billingTaskId := input.billingTaskId
        payload := input.settlementPayload fenceKey
        status := .pending
        attempts := 0
        nextAttemptAt := now
        createdAt := now
        updatedAt := now }))

def claimBatch (tie : CompensationKey → Int) (limit : Int) :
    EStateM CompensationThrown CompensationQueue (List HarnessBillingCompensationTask) := do
  if limit < 0 then throw (.database "LIMIT must not be negative")
  let queue ← get
  let claimed := (queue.ready now tie limit.toNat).map fun e => (e.1, e.2.claim now)
  set (CompensationQueue.mk (queue.rows.setAll claimed))
  return claimed.map (·.2.task)

/-- The row of a report. -/
def reportedRow (queue : CompensationQueue) (input : HarnessBillingCompensationTask)
    (key : String) : Option CompensationRow :=
  (queue.rows.get? (input.workspaceId, key)).filter (·.action = input.action)

def markCompleted (input : HarnessBillingCompensationTask) :
    EStateM CompensationThrown CompensationQueue Unit := do
  let key ← check input.settlementKey
  let queue ← get
  match queue.reportedRow input key with
  | some row => set (CompensationQueue.mk (queue.rows.set (input.workspaceId, key)
      { row with status := .completed, updatedAt := now }))
  | none => pure ()

def markFailed (input : HarnessBillingCompensationTask) (retryAt : Int) :
    EStateM CompensationThrown CompensationQueue Unit := do
  let key ← check input.settlementKey
  let queue ← get
  match queue.reportedRow input key with
  | some row => set (CompensationQueue.mk (queue.rows.set (input.workspaceId, key)
      { row with status := .pending, nextAttemptAt := retryAt, updatedAt := now }))
  | none => pure ()

end CompensationQueue

/-! ## Runs -/

inductive CompensationCall
  | enqueue (input : HarnessBillingCompensationTask)
  | claimBatch (tie : CompensationKey → Int) (limit : Int)
  | markCompleted (input : HarnessBillingCompensationTask)
  | markFailed (input : HarnessBillingCompensationTask) (retryAt : Int)

/-- **What happens**: a call, at the instant the database's clock shows. -/
structure CompensationEvent where
  now : Int
  call : CompensationCall

namespace CompensationQueue

/-- What a call hands out: the tasks of a claim. -/
def perform (now : Int) : CompensationCall →
    EStateM CompensationThrown CompensationQueue (List HarnessBillingCompensationTask)
  | .enqueue input => do
    enqueue now input
    return []
  | .claimBatch tie limit => claimBatch now tie limit
  | .markCompleted input => do
    markCompleted now input
    return []
  | .markFailed input retryAt => do
    markFailed now input retryAt
    return []

/-- The queue an event leaves. -/
def step (queue : CompensationQueue) (event : CompensationEvent) : CompensationQueue :=
  final (perform event.now event.call) queue

/-- The tasks an event hands out. -/
def handedOut (queue : CompensationQueue) (event : CompensationEvent) :
    List HarnessBillingCompensationTask :=
  match result (perform event.now event.call) queue with
  | .ok tasks => tasks
  | .error _ => []

end CompensationQueue

end MeiyeAgent
