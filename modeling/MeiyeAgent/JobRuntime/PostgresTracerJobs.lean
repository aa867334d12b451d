import MeiyeAgent.JobRuntime.TracerJobs

/-!
# JobRuntime/PostgresTracerJobs — the repository in a table

A call reads its row, or changes it in one `UPDATE … WHERE … RETURNING`; what throws inside a
transaction is rolled back.  The lease stands in three columns of the row.
-/

open Effect

namespace MeiyeAgent

/-- A row of `p1_job_tracer`. -/
structure TracerRow where
  workspaceId : String
  jobId : String
  kind : String
  runAt : Option Int
  payload : JobObject
  payloadHash : String
  status : TracerJobStatus
  acceptance : Option TracerAcceptance
  effectIdempotencyKey : String
  activeExecutionMs : Nat
  leaseToken : Option String
  leaseStartedAt : Option Int
  leaseExpiresAt : Option Int
  providerTaskRef : Option String
  output : Option JobObject
  error : Option String
  attempts : Nat
  createdAt : Int
  updatedAt : Int

def mapRow (row : TracerRow) : TracerJobRecord where
  workspaceId := row.workspaceId
  jobId := row.jobId
  kind := row.kind
  runAt := row.runAt.map .instant
  payload := row.payload
  payloadHash := row.payloadHash
  status := row.status
  acceptance := row.acceptance
  effectIdempotencyKey := row.effectIdempotencyKey
  leaseExpiresAt := row.leaseExpiresAt
  providerTaskRef := row.providerTaskRef
  output := row.output
  error := row.error
  attempts := row.attempts
  activeExecutionMs := row.activeExecutionMs
  createdAt := row.createdAt
  updatedAt := row.updatedAt

structure PostgresTracerJobs where
  rows : OrderedMap TracerKey TracerRow

namespace PostgresTracerJobs

def empty : PostgresTracerJobs := ⟨.empty⟩

abbrev Op (α : Type) : Type := EStateM JobError PostgresTracerJobs α

def get? (p : PostgresTracerJobs) (key : TracerKey) : Option TracerJobRecord :=
  (p.rows.get? key).map mapRow

def setRow (p : PostgresTracerJobs) (key : TracerKey) (row : TracerRow) : PostgresTracerJobs :=
  { p with rows := p.rows.set key row }

/-- `SELECT … FOR UPDATE`, of a job that has to be there. -/
def require (key : TracerKey) : Op TracerJobRecord := do
  check (((← get).get? key).elim (throw notFound) pure)

/-- `UPDATE … SET … WHERE … RETURNING *`, by the key and a further condition. -/
def updateRow (key : TracerKey) (holds : TracerRow → Bool) (set : TracerRow → TracerRow) :
    Op (Option TracerJobRecord) := do
  let matched := ((← get).rows.get? key).filter holds
  modify fun p => matched.elim p fun row => p.setRow key (set row)
  pure (matched.map fun row => mapRow (set row))

/-- The row that was updated; no row is an error. -/
def returned (missing : JobError) (row : Option TracerJobRecord) : Except JobError TracerJobRecord :=
  row.elim (throw missing) pure

variable (setup : TracerSetup)

/-! ## Submitting -/

def newRow (input : TracerJobInput) (now : Int) : TracerRow where
  workspaceId := input.workspaceId
  jobId := input.jobId
  kind := input.kind
  runAt := input.runAt.bind (·.time?)
  payload := input.payload
  payloadHash := payloadHash setup input
  status := .queued
  acceptance := none
  effectIdempotencyKey := providerEffectKey input.workspaceId input.jobId
  activeExecutionMs := 0
  leaseToken := none
  leaseStartedAt := none
  leaseExpiresAt := none
  providerTaskRef := none
  output := none
  error := none
  attempts := 0
  createdAt := now
  updatedAt := now

/-- `INSERT` where no row is, or the check of the row that is. -/
def insertUnlessSame (input : TracerJobInput) (now : Int) : Option TracerJobRecord → Op Unit
  | some existing => check (assertPayloadHash existing.payloadHash (payloadHash setup input))
  | none => modify (·.setRow input.key (newRow setup input now))

def submit (input : TracerJobInput) (now : Int) (refusal : Option String) :
    Op TracerJobRecord := do
  check (validateDurableJobInput input)
  transaction (do
    insertUnlessSame setup input now ((← get).get? input.key)
    check (queueTakes refusal))
  require input.key

/-! ## Resuming -/

def requeued (resumed : TracerJobInput) (now : Int) (row : TracerRow) : TracerRow :=
  { row with
    payload := resumed.payload
    payloadHash := payloadHash setup resumed
    status := .queued
    acceptance := none
    providerTaskRef := none
    output := none
    error := none
    leaseToken := none
    leaseStartedAt := none
    leaseExpiresAt := none
    updatedAt := now }

def isResumable (expectedPayloadHash : String) (row : TracerRow) : Bool :=
  row.status = .failed ∧ row.payloadHash = expectedPayloadHash ∧ row.providerTaskRef = none

def resumeFailed (input : ResumeFailedTracerJobInput) (now : Int) (refusal : Option String) :
    Op TracerJobRecord := transaction do
  let record ← require input.key
  check (assertPayloadHash record.payloadHash input.expectedPayloadHash)
  check (assertFailedResumeTarget record)
  if setup.resumes = false then
    throw (.runtime .RUNTIME_NOT_STARTED
      "The configured job transport cannot resume inside the tracer transaction.")
  let resumedInput := { record.toTracerJobInput with payload := input.payload }
  check (validateDurableJobInput resumedInput)
  let row ← updateRow input.key (isResumable input.expectedPayloadHash)
    (requeued setup resumedInput now)
  let resumed ← check (returned (.runtime .IDEMPOTENCY_CONFLICT
    "Failed tracer resume no longer matches its expected terminal state.") row)
  let _ ← check (failedResumeSequence record)
  check (queueTakes refusal)
  pure resumed

/-! ## Cancelling -/

/-- Why a job could not be cancelled, unless it had been. -/
def whyNotCancelled (current : TracerJobRecord) : Except JobError TracerJobRecord :=
  if current.status = .cancelled then pure current
  else throw (.runtime .INVALID_JOB "A terminal tracer job cannot be cancelled.")

def cancelRequested (now : Int) (row : TracerRow) : TracerRow :=
  { row with status := .cancel_requested, updatedAt := now }

/-- The row that was updated; without one, the job is looked at again. -/
def cancelledUnless (key : TracerKey) : Option TracerJobRecord → Op TracerJobRecord
  | some record => pure record
  | none => do
    let current ← require key
    check (whyNotCancelled current)

def requestCancel (key : TracerKey) (now : Int) : Op TracerJobRecord := do
  let row ← updateRow key (fun row => !row.status.isTerminal) (cancelRequested now)
  cancelledUnless key row

def reconciled (output : JobObject) (now : Int) (row : TracerRow) : TracerRow :=
  { row with output := some output, updatedAt := now }

def recordCancelledReconciliation (key : TracerKey) (providerTaskRef reconciliationKey : String)
    (output : JobObject) (now : Int) : Op TracerJobRecord := transaction do
  let record ← require key
  check (assertCancelledReconciliationTarget record providerTaskRef reconciliationKey)
  if cancelledReconciliationKey record.output = some reconciliationKey then
    pure record
  else do
    let row ← updateRow key (fun row => row.status = .cancelled)
      (reconciled (mergeOutput record.output output) now)
    check (returned (.runtime .STALE_LEASE
      "Cancelled tracer reconciliation is no longer current.") row)

/-! ## Leases -/

/-- `FLOOR(EXTRACT(EPOCH FROM …) * 1000)`, at least 0, of a lease that had run out. -/
def expiredMs (row : TracerRow) (now : Int) : Nat :=
  match row.leaseStartedAt, row.leaseExpiresAt with
  | some started, some expires =>
    if expires ≤ now then elapsedMilliseconds started (min now expires) else 0
  | _, _ => 0

def leased (decision : TracerDecision) (now : Int) (uuid : String) (row : TracerRow) :
    TracerRow :=
  { row with
    status := if decision = .execute then .running else row.status
    attempts := row.attempts + 1
    activeExecutionMs := row.activeExecutionMs + expiredMs row now
    updatedAt := now
    leaseToken := some uuid
    leaseStartedAt := some now
    leaseExpiresAt := some (now + setup.leaseDurationMs) }

/-- The decision a terminal status stands for. -/
def terminalDecision : TracerJobStatus → Option TracerDecision
  | .completed => some .completed
  | .failed => some .failed
  | .cancelled => some .cancelled
  | .queued | .running | .unknown | .cancel_requested => none

def reserveOpen (key : TracerKey) (now : Int) (uuid : String) (record : TracerJobRecord) :
    Op TracerReservation :=
  if record.leaseExpiresAt.any (now < ·) then
    pure { decision := .in_progress, record, leaseToken := none }
  else do
    let decision := leaseDecision record.status
    let row ← updateRow key (fun _ => true) (leased setup decision now uuid)
    let record ← check (returned notFound row)
    pure { decision, record, leaseToken := some uuid }

def reserve (key : TracerKey) (now : Int) (uuid : String) : Op TracerReservation :=
  transaction do
    let record ← require key
    match terminalDecision record.status with
    | some decision => pure { decision, record, leaseToken := none }
    | none => reserveOpen setup key now uuid record

/-! ## Results -/

/-- What `update` is told to set. -/
structure TracerPatch where
  status : TracerJobStatus
  acceptance : Option TracerAcceptance := none
  providerTaskRef : Option String := none
  output : Option JobObject := none
  error : Option String := none
  requiredCurrentStatus : Option TracerJobStatus := none

def patch : TracerResult → TracerPatch
  | .recordRejected error =>
    { status := .queued, acceptance := some .rejected_before_accept, error := some error }
  | .recordRejectedTerminal error output taskRef =>
    { status := .failed
      acceptance := some .rejected_before_accept
      providerTaskRef := taskRef
      output
      error := some error }
  | .recordUnknown error taskRef =>
    { status := .unknown
      acceptance := some .acceptance_unknown
      providerTaskRef := taskRef
      error := some error }
  | .recordAccepted taskRef delivery error =>
    { status := if delivery = .unknown then .unknown else .running
      acceptance := some .accepted
      providerTaskRef := taskRef
      error }
  | .complete output taskRef =>
    { status := .completed
      acceptance := some .accepted
      providerTaskRef := taskRef
      output := some output }
  | .fail error taskRef =>
    { status := .failed
      acceptance := some .accepted
      providerTaskRef := taskRef
      error := some error }
  | .recordCancelled output taskRef acceptance =>
    { status := .cancelled
      acceptance
      providerTaskRef := taskRef
      output
      requiredCurrentStatus := some .cancel_requested }

/-- `CASE WHEN status = 'cancel_requested' AND $3 IN (…) THEN status ELSE $3 END`. -/
def nextStatus (current next : TracerJobStatus) : TracerJobStatus :=
  if current = .cancel_requested ∧ (next = .queued ∨ next = .running ∨ next = .unknown) then current
  else next

def patched (patch : TracerPatch) (now : Int) (row : TracerRow) : TracerRow :=
  { row with
    status := nextStatus row.status patch.status
    acceptance := patch.acceptance <|> row.acceptance
    providerTaskRef := patch.providerTaskRef <|> row.providerTaskRef
    output := patch.output <|> row.output
    error := patch.error
    updatedAt := now
    activeExecutionMs := row.activeExecutionMs +
      (row.leaseStartedAt.elim 0 (elapsedMilliseconds · now))
    leaseToken := none
    leaseStartedAt := none
    leaseExpiresAt := none }

def isCurrent (patch : TracerPatch) (leaseToken : String) (row : TracerRow) : Bool :=
  row.leaseToken = some leaseToken ∧ ¬ row.status.isTerminal ∧
    patch.requiredCurrentStatus.all (row.status = ·)

def update (key : TracerKey) (leaseToken : String) (result : TracerResult) (now : Int) :
    Op TracerJobRecord := do
  let row ← updateRow key (isCurrent (patch result) leaseToken) (patched (patch result) now)
  check (returned staleResult row)

/-! ## Calls -/

def perform : TracerCall → Op TracerAnswer
  | .submit input now refusal => .record <$> submit setup input now refusal
  | .resumeFailed input now refusal => .record <$> resumeFailed setup input now refusal
  | .requestCancel key now => .record <$> requestCancel key now
  | .reserve key now uuid => .reservation <$> reserve setup key now uuid
  | .record key leaseToken result now => .record <$> update key leaseToken result now
  | .recordCancelledReconciliation key providerTaskRef reconciliationKey output now =>
    .record <$> recordCancelledReconciliation key providerTaskRef reconciliationKey output now

/-! ## Outcomes -/

section Outcomes

variable {p : PostgresTracerJobs} {key : TracerKey} {E : JobError → PostgresTracerJobs → Prop}

/-- A job that has to be there. -/
theorem wp_require {Q : TracerJobRecord → PostgresTracerJobs → Prop} :
    Wp (require key) p Q E ↔ (∀ record, p.get? key = some record → Q record p) ∧
      (p.get? key = none → E notFound p) := by
  rw [require, wp_bind, wp_get]
  cases p.get? key with
  | none => exact wp_check.trans (by simp [throw, throwThe, MonadExceptOf.throw])
  | some record => exact wp_check.trans (by simp [pure, Except.pure])

/-- An `UPDATE` of the row of a job. -/
theorem wp_updateRow {holds : TracerRow → Bool} {set : TracerRow → TracerRow}
    {Q : Option TracerJobRecord → PostgresTracerJobs → Prop} :
    Wp (updateRow key holds set) p Q E ↔
      (∀ row, p.rows.get? key = some row → holds row = true →
        Q (some (mapRow (set row))) (p.setRow key (set row))) ∧
      ((∀ row, p.rows.get? key = some row → holds row = false) → Q none p) := by
  simp only [updateRow, wp_bind, wp_get, wp_modify, wp_pure]
  cases p.rows.get? key with
  | none => simp
  | some row => cases h : holds row <;> simp [Option.filter_some, h]

end Outcomes

end PostgresTracerJobs

end MeiyeAgent
