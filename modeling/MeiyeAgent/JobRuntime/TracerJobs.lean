import MeiyeAgent.Foundation.Json
import MeiyeAgent.Foundation.TextOrder
import MeiyeAgent.Machinery.OrderedMap

/-!
# JobRuntime/TracerJobs — durable provider jobs, and what is checked of them

Both repositories hold the same record and make the same checks; how a call is carried out is
theirs.  A clock, a queue and a UUID are read through what they answer the call.
-/

namespace MeiyeAgent

inductive TracerJobStatus
  | queued
  | running
  | unknown
  | cancel_requested
  | cancelled
  | completed
  | failed
  deriving DecidableEq

/-- No worker may write any more. -/
def TracerJobStatus.isTerminal : TracerJobStatus → Bool
  | .completed | .failed | .cancelled => true
  | .queued | .running | .unknown | .cancel_requested => false

theorem TracerJobStatus.isTerminal_iff {status : TracerJobStatus} : status.isTerminal = true ↔
    status = .completed ∨ status = .failed ∨ status = .cancelled := by
  cases status <;> decide

inductive TracerAcceptance
  | rejected_before_accept
  | accepted
  | acceptance_unknown
  deriving DecidableEq

inductive TracerDelivery
  | pending
  | completed
  | failed
  | unknown
  deriving DecidableEq

/-! ## Errors -/

inductive JobRuntimeErrorCode
  | IDEMPOTENCY_CONFLICT
  | NOT_FOUND
  | INVALID_JOB
  | RUNTIME_NOT_STARTED
  | STALE_LEASE
  deriving DecidableEq

/-- A `JobRuntimeError`, or what the queue has thrown. -/
inductive JobError
  | runtime (code : JobRuntimeErrorCode) (message : String)
  | queue (message : String)
  deriving DecidableEq

/-- The code of an error, `none` where the queue has thrown it. -/
def JobError.code : JobError → Option JobRuntimeErrorCode
  | .runtime code _ => some code
  | .queue _ => none

def notFound : JobError := .runtime .NOT_FOUND "Tracer job was not found."

def staleResult : JobError :=
  .runtime .STALE_LEASE "Tracer result belongs to a stale worker lease."

/-! ## Jobs -/

/-- A JSON object. -/
abbrev JobObject := OrderedMap String Json

/-- A `runAt` that is given: the instant its text names, or a text that names none. -/
inductive RunAt
  | instant (ms : Int)
  | invalid
  deriving DecidableEq

def RunAt.time? : RunAt → Option Int
  | .instant ms => some ms
  | .invalid => none

/-- A workspace's job. -/
structure TracerKey where
  workspaceId : String
  jobId : String
  deriving DecidableEq

structure TracerJobInput where
  workspaceId : String
  jobId : String
  kind : String
  runAt : Option RunAt := none
  payload : JobObject

def TracerJobInput.key (input : TracerJobInput) : TracerKey := ⟨input.workspaceId, input.jobId⟩

structure ResumeFailedTracerJobInput where
  workspaceId : String
  jobId : String
  expectedPayloadHash : String
  payload : JobObject

def ResumeFailedTracerJobInput.key (input : ResumeFailedTracerJobInput) : TracerKey :=
  ⟨input.workspaceId, input.jobId⟩

structure TracerJobRecord extends TracerJobInput where
  status : TracerJobStatus
  acceptance : Option TracerAcceptance
  effectIdempotencyKey : String
  leaseExpiresAt : Option Int
  providerTaskRef : Option String
  output : Option JobObject
  error : Option String
  attempts : Nat
  /-- Wall time accumulated only while a fenced worker lease is active. -/
  activeExecutionMs : Nat
  payloadHash : String
  createdAt : Int
  updatedAt : Int

inductive TracerDecision
  | execute
  | reconcile
  | cancel
  | in_progress
  | cancelled
  | completed
  | failed
  deriving DecidableEq

structure TracerReservation where
  decision : TracerDecision
  record : TracerJobRecord
  leaseToken : Option String

/-- What a worker that is given the lease has to do. -/
def leaseDecision : TracerJobStatus → TracerDecision
  | .queued => .execute
  | .cancel_requested => .cancel
  | _ => .reconcile

/-- The calls that record what a worker has seen, under the token of its lease. -/
inductive TracerResult
  | recordRejected (error : String)
  | recordRejectedTerminal (error : String) (output : Option JobObject) (taskRef : Option String)
  | recordUnknown (error : String) (taskRef : Option String)
  | recordAccepted (taskRef : Option String) (delivery : TracerDelivery) (error : Option String)
  | complete (output : JobObject) (taskRef : Option String)
  | fail (error : String) (taskRef : Option String)
  | recordCancelled (output : Option JobObject) (taskRef : Option String)
    (acceptance : Option TracerAcceptance)

/-! ## Checks -/

/-- How a repository is set up. -/
structure TracerSetup where
  fingerprintValue : Json → String
  leaseDurationMs : Int
  positive : 0 < leaseDurationMs
  /-- The queue can resume a job. -/
  resumes : Bool

def validateDurableJobInput (input : TracerJobInput) : Except JobError Unit := do
  if Text.isBlank input.jobId ∨ Text.isBlank input.workspaceId ∨ Text.isBlank input.kind then
    throw (.runtime .INVALID_JOB "jobId, workspaceId, and kind are required.")
  if input.runAt = some .invalid then
    throw (.runtime .INVALID_JOB "runAt must be an ISO date.")

def payloadHash (setup : TracerSetup) (input : TracerJobInput) : String :=
  setup.fingerprintValue <| .object <|
    [("workspaceId", .text input.workspaceId), ("jobId", .text input.jobId),
      ("kind", .text input.kind)] ++
    ((input.runAt.bind (·.time?)).toList.map fun ms => ("runAt", .text (isoText ms))) ++
    [("payload", .object input.payload.entries)]

def assertPayloadHash (existing requested : String) : Except JobError Unit :=
  if existing = requested then pure ()
  else throw (.runtime .IDEMPOTENCY_CONFLICT
    "Tracer job id was reused with a different payload.")

/-- A text that is given and is not empty. -/
def isGiven (value : Option String) : Bool := value.any (· ≠ "")

def assertFailedResumeTarget (record : TracerJobRecord) : Except JobError Unit := do
  if record.status ≠ .failed then
    throw (.runtime .INVALID_JOB "Only a failed tracer job can be resumed.")
  if isGiven record.providerTaskRef then
    throw (.runtime .INVALID_JOB
      "A failed tracer job with an active provider task cannot be resumed.")

def failedResumeSequence (record : TracerJobRecord) : Except JobError Nat :=
  if record.attempts < 1 then
    throw (.runtime .INVALID_JOB
      "A failed tracer job must record an attempt before it can resume.")
  else pure record.attempts

def cancelledReconciliationKey (output : Option JobObject) : Option String := do
  let terminal ← (← output).get? "cancelledProviderTerminal"
  (← terminal.field? "reconciliationKey").text?

def assertCancelledReconciliationTarget (record : TracerJobRecord)
    (providerTaskRef reconciliationKey : String) : Except JobError Unit := do
  if record.status ≠ .cancelled then
    throw (.runtime .INVALID_JOB
      "Late provider terminal reconciliation requires a cancelled tracer job.")
  if ¬ isGiven record.providerTaskRef ∨ record.providerTaskRef ≠ some providerTaskRef then
    throw (.runtime .INVALID_JOB
      "Late provider terminal task reference does not match the cancelled job.")
  if isGiven (cancelledReconciliationKey record.output) ∧
      cancelledReconciliationKey record.output ≠ some reconciliationKey then
    throw (.runtime .IDEMPOTENCY_CONFLICT
      "Cancelled tracer already records a different provider terminal fact.")

def elapsedMilliseconds (startedAt endedAt : Int) : Nat := (endedAt - startedAt).toNat

def providerEffectKey (workspaceId jobId : String) : String :=
  "provider-effect:v1:" ++ toString (codeUnits workspaceId).length ++ ":" ++ workspaceId ++ ":" ++
    jobId

/-- `{ ...held, ...output }`. -/
def mergeOutput (held : Option JobObject) (output : JobObject) : JobObject :=
  (held.getD .empty).setAll output.entries

/-- The queue takes the job, or throws. -/
def queueTakes (refusal : Option String) : Except JobError Unit :=
  match refusal with
  | none => pure ()
  | some message => throw (.queue message)

/-! ## Calls -/

/-- **One call of a repository**, with what the clock, the queue and the UUID answer it. -/
inductive TracerCall
  | submit (input : TracerJobInput) (now : Int) (refusal : Option String)
  | resumeFailed (input : ResumeFailedTracerJobInput) (now : Int) (refusal : Option String)
  | requestCancel (key : TracerKey) (now : Int)
  | reserve (key : TracerKey) (now : Int) (uuid : String)
  | record (key : TracerKey) (leaseToken : String) (result : TracerResult) (now : Int)
  | recordCancelledReconciliation (key : TracerKey) (providerTaskRef reconciliationKey : String)
    (output : JobObject) (now : Int)

/-- What a call returns. -/
inductive TracerAnswer
  | record (record : TracerJobRecord)
  | reservation (reservation : TracerReservation)

end MeiyeAgent
