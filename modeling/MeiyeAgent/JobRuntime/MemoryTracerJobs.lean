import MeiyeAgent.JobRuntime.TracerJobs

/-!
# JobRuntime/MemoryTracerJobs — the repository in memory

A record is changed where it stands; nothing is taken back but what `resumeFailed` takes back
itself.
-/

open Effect

namespace MeiyeAgent

structure TracerLease where
  token : String
  startedAt : Int
  expiresAt : Int
  deriving DecidableEq

structure MemoryTracerJobs where
  records : OrderedMap TracerKey TracerJobRecord
  leases : OrderedMap TracerKey TracerLease

namespace MemoryTracerJobs

def empty : MemoryTracerJobs := ⟨.empty, .empty⟩

abbrev Op (α : Type) : Type := EStateM JobError MemoryTracerJobs α

def get? (m : MemoryTracerJobs) (key : TracerKey) : Option TracerJobRecord := m.records.get? key

def setRecord (m : MemoryTracerJobs) (key : TracerKey) (record : TracerJobRecord) :
    MemoryTracerJobs := { m with records := m.records.set key record }

def setLease (m : MemoryTracerJobs) (key : TracerKey) (lease : TracerLease) : MemoryTracerJobs :=
  { m with leases := m.leases.set key lease }

def dropLease (m : MemoryTracerJobs) (key : TracerKey) : MemoryTracerJobs :=
  { m with leases := m.leases.erase key }

def requireRecord (key : TracerKey) : Op TracerJobRecord := do
  check (((← get).get? key).elim (throw notFound) pure)

variable (setup : TracerSetup)

/-! ## Submitting -/

def newRecord (input : TracerJobInput) (now : Int) : TracerJobRecord :=
  { input with
    status := .queued
    acceptance := none
    effectIdempotencyKey := providerEffectKey input.workspaceId input.jobId
    leaseExpiresAt := none
    providerTaskRef := none
    output := none
    error := none
    attempts := 0
    activeExecutionMs := 0
    payloadHash := payloadHash setup input
    createdAt := now
    updatedAt := now }

def submitTo (input : TracerJobInput) (now : Int) (refusal : Option String) :
    Option TracerJobRecord → Op TracerJobRecord
  | some existing => do
    check (assertPayloadHash existing.payloadHash (payloadHash setup input))
    check (queueTakes refusal)
    pure existing
  | none => do
    modify (·.setRecord input.key (newRecord setup input now))
    check (queueTakes refusal)
    pure (newRecord setup input now)

def submit (input : TracerJobInput) (now : Int) (refusal : Option String) :
    Op TracerJobRecord := do
  check (validateDurableJobInput input)
  submitTo setup input now refusal ((← get).get? input.key)

/-! ## Resuming -/

/-- A failed record, queued again with the payload `resumed` brings. -/
def requeued (record : TracerJobRecord) (resumed : TracerJobInput) (now : Int) :
    TracerJobRecord :=
  { record with
    payload := resumed.payload
    payloadHash := payloadHash setup resumed
    status := .queued
    acceptance := none
    providerTaskRef := none
    output := none
    error := none
    leaseExpiresAt := none
    updatedAt := now }

/-- `try … catch`: where the operation throws, the previous record comes back. -/
def restoring (key : TracerKey) (previous : TracerJobRecord) (x : Op Unit) : Op Unit := fun m =>
  match x m with
  | .ok a m' => .ok a m'
  | .error e m' => .error e (m'.setRecord key previous)

def resumeFailed (input : ResumeFailedTracerJobInput) (now : Int) (refusal : Option String) :
    Op TracerJobRecord := do
  let record ← requireRecord input.key
  check (assertPayloadHash record.payloadHash input.expectedPayloadHash)
  check (assertFailedResumeTarget record)
  if setup.resumes = false then
    throw (.runtime .RUNTIME_NOT_STARTED
      "The configured job transport cannot enqueue a failed-job resume.")
  let resumedInput := { record.toTracerJobInput with payload := input.payload }
  check (validateDurableJobInput resumedInput)
  let resumed := requeued setup record resumedInput now
  modify fun m => (m.setRecord input.key resumed).dropLease input.key
  restoring input.key record (do
    let _ ← check (failedResumeSequence resumed)
    check (queueTakes refusal))
  pure resumed

/-! ## Cancelling -/

def cancelRequested (record : TracerJobRecord) (now : Int) : TracerJobRecord :=
  { record with status := .cancel_requested, updatedAt := now }

def requestCancel (key : TracerKey) (now : Int) : Op TracerJobRecord := do
  let record ← requireRecord key
  if record.status = .cancelled then
    pure record
  else if record.status = .completed ∨ record.status = .failed then
    throw (.runtime .INVALID_JOB "A terminal tracer job cannot be cancelled.")
  else do
    modify (·.setRecord key (cancelRequested record now))
    pure (cancelRequested record now)

/-- A record whose output is merged with what came late. -/
def reconciled (record : TracerJobRecord) (output : JobObject) (now : Int) : TracerJobRecord :=
  { record with output := some (mergeOutput record.output output), updatedAt := now }

def recordCancelledReconciliation (key : TracerKey) (providerTaskRef reconciliationKey : String)
    (output : JobObject) (now : Int) : Op TracerJobRecord := do
  let record ← requireRecord key
  check (assertCancelledReconciliationTarget record providerTaskRef reconciliationKey)
  if cancelledReconciliationKey record.output = some reconciliationKey then
    pure record
  else do
    modify (·.setRecord key (reconciled record output now))
    pure (reconciled record output now)

/-! ## Leases -/

/-- A record whose lease is given to a worker, after the lease `expired`. -/
def leased (record : TracerJobRecord) (expired : Option TracerLease) (now : Int) :
    TracerJobRecord :=
  { record with
    activeExecutionMs := record.activeExecutionMs +
      (expired.elim 0 fun lease => elapsedMilliseconds lease.startedAt (min now lease.expiresAt))
    leaseExpiresAt := some (now + setup.leaseDurationMs)
    status := if leaseDecision record.status = .execute then .running else record.status
    attempts := record.attempts + 1
    updatedAt := now }

def reserveFrom (key : TracerKey) (now : Int) (uuid : String) (record : TracerJobRecord)
    (activeLease : Option TracerLease) : Op TracerReservation :=
  if activeLease.any (now < ·.expiresAt) then
    pure { decision := .in_progress, record, leaseToken := none }
  else do
    modify fun m => (m.setLease key ⟨uuid, now, now + setup.leaseDurationMs⟩).setRecord key
      (leased setup record activeLease now)
    pure
      { decision := leaseDecision record.status
        record := leased setup record activeLease now
        leaseToken := some uuid }

def reserve (key : TracerKey) (now : Int) (uuid : String) : Op TracerReservation := do
  let record ← requireRecord key
  if record.status = .completed then
    pure { decision := .completed, record, leaseToken := none }
  else if record.status = .failed then
    pure { decision := .failed, record, leaseToken := none }
  else if record.status = .cancelled then
    pure { decision := .cancelled, record, leaseToken := none }
  else do
    reserveFrom setup key now uuid record ((← get).leases.get? key)

/-! ## Results -/

/-- The status of a result that ends nothing: a requested cancel stays. -/
def unlessCancelled (record : TracerJobRecord) (status : TracerJobStatus) : TracerJobStatus :=
  if record.status ≠ .cancel_requested then status else record.status

/-- What a result makes of a record. -/
def updater (record : TracerJobRecord) : TracerResult → Except JobError TracerJobRecord
  | .recordRejected error => pure { record with
      status := unlessCancelled record .queued
      acceptance := some .rejected_before_accept
      error := some error }
  | .recordRejectedTerminal error output taskRef => pure { record with
      status := .failed
      acceptance := some .rejected_before_accept
      providerTaskRef := taskRef <|> record.providerTaskRef
      output := output <|> record.output
      error := some error }
  | .recordUnknown error taskRef => pure { record with
      status := unlessCancelled record .unknown
      acceptance := some .acceptance_unknown
      providerTaskRef := taskRef <|> record.providerTaskRef
      error := some error }
  | .recordAccepted taskRef delivery error => pure { record with
      status := unlessCancelled record (if delivery = .unknown then .unknown else .running)
      acceptance := some .accepted
      providerTaskRef := taskRef <|> record.providerTaskRef
      error }
  | .complete output taskRef => pure { record with
      status := .completed
      acceptance := some .accepted
      providerTaskRef := taskRef <|> record.providerTaskRef
      output := some output
      error := none }
  | .fail error taskRef => pure { record with
      status := .failed
      acceptance := some .accepted
      providerTaskRef := taskRef <|> record.providerTaskRef
      error := some error }
  | .recordCancelled output taskRef acceptance =>
    if record.status ≠ .cancel_requested then
      throw (.runtime .STALE_LEASE "Tracer cancellation is no longer current.")
    else pure { record with
      status := .cancelled
      acceptance := acceptance <|> record.acceptance
      providerTaskRef := taskRef <|> record.providerTaskRef
      output := output <|> record.output
      error := none }

/-- The lease of an updated record is given up. -/
def released (record : TracerJobRecord) (lease : Option TracerLease) (now : Int) :
    TracerJobRecord :=
  { record with
    activeExecutionMs := record.activeExecutionMs +
      (lease.elim 0 fun lease => elapsedMilliseconds lease.startedAt now)
    updatedAt := now
    leaseExpiresAt := none }

def update (key : TracerKey) (leaseToken : String) (result : TracerResult) (now : Int) :
    Op TracerJobRecord := do
  let record ← requireRecord key
  let lease := (← get).leases.get? key
  if lease.map (·.token) ≠ some leaseToken ∨ record.status.isTerminal then
    throw staleResult
  let updated ← check (updater record result)
  modify fun m => (m.setRecord key (released updated lease now)).dropLease key
  pure (released updated lease now)

/-! ## Calls -/

def perform : TracerCall → Op TracerAnswer
  | .submit input now refusal => .record <$> submit setup input now refusal
  | .resumeFailed input now refusal => .record <$> resumeFailed setup input now refusal
  | .requestCancel key now => .record <$> requestCancel key now
  | .reserve key now uuid => .reservation <$> reserve setup key now uuid
  | .record key leaseToken result now => .record <$> update key leaseToken result now
  | .recordCancelledReconciliation key providerTaskRef reconciliationKey output now =>
    .record <$> recordCancelledReconciliation key providerTaskRef reconciliationKey output now

/-! ## Outcomes -/

section Outcomes

variable {m : MemoryTracerJobs} {key : TracerKey} {E : JobError → MemoryTracerJobs → Prop}

theorem wp_restoring {previous : TracerJobRecord} {x : Op Unit}
    {Q : Unit → MemoryTracerJobs → Prop} : Wp (restoring key previous x) m Q E ↔
      Wp x m Q fun e m' => E e (m'.setRecord key previous) := by
  simp only [Wp, restoring]
  cases x m <;> rfl

end Outcomes

end MemoryTracerJobs

end MeiyeAgent
