import MeiyeAgent.Harness.PlanAdmission

/-!
# Harness/PaidConfirmation — the confirmation gate of paid generation

The gate asks, once a pass, whether a request would pay for media, reads the stored decision or
puts a question to the merchant, and admits the frozen plan the request carries.

* `triggersPaidMediaExecution` — which requests are held.
* `confirmPaidGenerationExecution` — the loop of passes, over any ports; `fuel` counts the passes.
* `GateEvent` — what a run has called, and what it was answered.
-/

namespace MeiyeAgent

open Effect

/-! ## Requests -/

/-- What a reservation reserves: `resource` of a `CreationSubmissionUsageUnit`. -/
inductive CreationUsageResource
  | copy
  | image
  | video
  deriving DecidableEq

structure CreationSubmissionUsageUnit where
  resource : CreationUsageResource
  quantity : Int
  deriving DecidableEq

/-- `units` is absent where no array is stored. -/
structure CreationUsageReservation where
  units : Option (List CreationSubmissionUsageUnit)
  credits : Option Int := none
  deriving DecidableEq

structure QuoteReference where
  id : String
  revision : String
  deriving DecidableEq

/-- The part of a `CreationExecutionSnapshot` the gate reads. -/
structure SnapshotOfSubmission where
  id : String
  taskId : String
  lens : ExecutionLens
  quote : Option QuoteReference
  deriving DecidableEq

structure HarnessWorkflowInput (ρ : Type) where
  workspaceId : String
  workflowRevision : Int
  executionSnapshot : Option SnapshotOfSubmission := none
  usageReservation : Option CreationUsageReservation := none
  executionPlanSnapshot : Option (ExecutionPlanSnapshot ρ) := none
  pendingExecutionPlanSnapshot : Option (PendingExecutionPlanSnapshot ρ) := none
  executionConfirmationRequestId : Option String := none
  executionConfirmationReservedCredits : Option Int := none
  executionConfirmationDiffFields : Option (List String) := none
  others : Json := .object []

variable {ρ : Type}

def PAID_MEDIA_USAGE_RESOURCES : List CreationUsageResource := [.image, .video]

def triggersPaidMediaExecution (request : HarnessWorkflowInput ρ) : Bool :=
  if request.executionPlanSnapshot.map (·.content.approvalBasis) = some .merchant_confirmed then
    false
  else
    match request.executionSnapshot, request.usageReservation with
    | some snapshot, some reservation =>
      if snapshot.quote.isNone then false
      else
        match reservation.units with
        | none => true
        | some [] => if reservation.credits.isSome then snapshot.lens ≠ .copy else true
        | some units => units.any (·.resource ∈ PAID_MEDIA_USAGE_RESOURCES)
    | _, _ => false

/-! ## Questions and answers -/

structure OutlinePage where
  order : Int
  title : String
  deriving DecidableEq

structure PaidGenerationNoteOutline where
  pageCount : Int
  pages : List OutlinePage
  deriving DecidableEq

structure QuestionOption where
  id : String
  label : String
  deriving DecidableEq

structure QuestionCard where
  questionId : String
  workflowId : String
  workflowRevision : Int
  question : String
  options : List QuestionOption := [⟨"approved", "确认执行"⟩, ⟨"rejected", "暂不执行"⟩]
  responseField : String := "execution_confirmation"
  responseReason : String
  reservedCredits : Option Int
  outline : Option PaidGenerationNoteOutline
  deriving DecidableEq

/-- A whole number from one to `most`. -/
def parseCount (most n : Int) : Option Int := if 0 < n ∧ n ≤ most then some n else none

def OutlinePage.parse (page : OutlinePage) : Option OutlinePage := do
  return ⟨← parseCount 20 page.order, ← parseTrimmedMost 200 page.title⟩

/-- `executionConfirmationOutlineSchema.parse`. -/
def PaidGenerationNoteOutline.parse (outline : PaidGenerationNoteOutline) :
    Option PaidGenerationNoteOutline := do
  guard (outline.pages ≠ [] ∧ outline.pages.length ≤ 20)
  return ⟨← parseCount 20 outline.pageCount, ← outline.pages.mapM OutlinePage.parse⟩

/-- `questionCardSchema.parse`, on the fields that a request decides. -/
def QuestionCard.parse (card : QuestionCard) : Option QuestionCard := do
  guard (0 ≤ card.workflowRevision ∧ isSafeInteger card.workflowRevision)
  return { card with
    questionId := ← parseTrimmed card.questionId
    workflowId := ← parseTrimmed card.workflowId
    question := ← parseTrimmedMost 2000 card.question
    reservedCredits := ← card.reservedCredits.mapM (parseCount maxSafeInteger)
    outline := ← card.outline.mapM PaidGenerationNoteOutline.parse }

inductive PatchDecisionState
  | pending
  | accepted
  | editing
  | ignored
  deriving DecidableEq

structure StructuredDecisionInput where
  idempotencyKey : String
  questionId : String
  workflowRevision : Int
  field : String
  state : PatchDecisionState
  value : String
  deriving DecidableEq

/-- The answer that approves. -/
def StructuredDecisionInput.approves (command : StructuredDecisionInput) : Bool :=
  command.state = .accepted ∧ command.value = "approved"

def merchantPaidGenerationConfirmationQuestion : String :=
  "是否按当前方案开始生成？将按展示的参数与费用执行。"

def merchantPaidGenerationConfirmationReason : String :=
  "生成前需要商家确认本次执行参数与费用"

def merchantPaidGenerationConfirmationAccepted : String := "已确认执行方案，开始生成。"

inductive ProgressState
  | suspended
  | success
  deriving DecidableEq

structure ConfirmPaidGenerationProgressEvent where
  state : ProgressState
  message : String
  deriving DecidableEq

/-- The progress of a confirmed run. -/
def acceptedProgress : ConfirmPaidGenerationProgressEvent :=
  ⟨.success, merchantPaidGenerationConfirmationAccepted⟩

/-! ## Ports -/

/-- A decision as its schema has read it. -/
structure StoredPlanDecision extends PlanConfirmationDecision where
  identified : parseTrimmed decisionId = some decisionId

/-- `String(revision)`. -/
def RevisionValue.string : RevisionValue → String
  | .number value => toString value
  | .text value => value

structure RepricedPaidExecutionSuccessorRequest where
  workspaceId : String
  workflowId : String
  submissionId : String
  taskId : String
  confirmationRequestId : String
  expectedSnapshotHash : String
  expectedQuoteRef : QuoteReference
  observedQuoteRevision : String
  observedRightsRevisionRefs : List String
  observedFactRevisionRefs : List String
  diffFields : List SnapshotStaleField
  deriving DecidableEq

structure RepricedSuccessor where
  taskId : String
  requestId : Option String
  deriving DecidableEq

inductive GateError
  | plain (message : String)
  | schema
  | admission (error : PlanAdmissionError)
  | safeStop (merchantMessage : String)
  | repricedSuccessorCreated
      (workflowId predecessorRequestId successorTaskId successorConfirmationRequestId : String)
  | requiresSuccessorAdmission (workflowId confirmationRequestId : String)
      (diffFields : List SnapshotStaleField)
  /-- The loop has used up its passes: it has not ended. -/
  | running
  deriving DecidableEq

/-- **What a run has called**, and what it was answered. -/
inductive GateEvent (ρ : Type)
  | reported (event : ConfirmPaidGenerationProgressEvent)
  | answered (card : QuestionCard) (command : StructuredDecisionInput)
  | decisionRead (workspaceId requestId : String) (decision : Option StoredPlanDecision)
  | liveFactsResolved (snapshot : ExecutionPlanSnapshot ρ) (live : Option SnapshotLiveFacts)
  | successorRequested (request : RepricedPaidExecutionSuccessorRequest)
  | admissionCalled (input : AdmitExecutionPlanInput ρ)
  | applied (request : HarnessWorkflowInput ρ)

/-- **The ports of the gate**, over a world `σ`: a port answers and changes the world as it likes,
and may throw.  Plans are admitted to a store. -/
structure ConfirmPaidGenerationPorts (host : PlanHost ρ) (σ : Type) where
  reportProgress : ConfirmPaidGenerationProgressEvent → EStateM GateError σ Unit
  awaitResolvedDecision : QuestionCard → EStateM GateError σ StructuredDecisionInput
  applyCurrentTaskDecision : String → HarnessWorkflowInput ρ → StructuredDecisionInput →
    EStateM GateError σ (HarnessWorkflowInput ρ)
  getExecutionConfirmationDecision :
    Option (String → String → EStateM GateError σ (Option StoredPlanDecision)) := none
  executionPlanSnapshots : Option (ExecutionPlanSnapshotStore host σ) := none
  resolveExecutionPlanLiveFacts : Option (String → HarnessWorkflowInput ρ →
    ExecutionPlanSnapshot ρ → EStateM GateError σ (Option SnapshotLiveFacts)) := none
  createRepricedPaidExecutionSuccessor :
    Option (RepricedPaidExecutionSuccessorRequest → EStateM GateError σ RepricedSuccessor) := none
  now : σ → String

structure GateState (ρ σ : Type) where
  world : σ
  log : List (GateEvent ρ)

abbrev GateM (ρ σ : Type) := EStateM GateError (GateState ρ σ)

section Calls

variable {σ α : Type}

/-- A call of a port. -/
def callPort (port : EStateM GateError σ α) : GateM ρ σ α :=
  zoom (·.world) (fun s world => { s with world }) port

def logEvent (event : GateEvent ρ) : GateM ρ σ Unit :=
  modify fun s => { s with log := s.log ++ [event] }

/-- An error of the admission, as the gate throws it. -/
def liftAdmission (x : EStateM PlanAdmissionError σ α) : EStateM GateError σ α := fun s =>
  match x s with
  | .ok a s' => .ok a s'
  | .error e s' => .error (.admission e) s'

end Calls

/-! ## The gate -/

def executionConfirmationRequestId (workflowId : String) : Except GateError String :=
  match parseTrimmed workflowId with
  | some id => .ok ("confirmation:" ++ id)
  | none => .error (.plain "Execution confirmation requires a workflow ID.")

/-- The confirmation a request waits for. -/
def confirmationRequestId (workflowId : String) (request : HarnessWorkflowInput ρ) :
    Except GateError String :=
  match request.executionConfirmationRequestId with
  | some requestId => .ok requestId
  | none => executionConfirmationRequestId workflowId

/-- The plan a request is known by: the admitted one, else the pending one. -/
def executionPlanAdmissionWorkflowId (taskId : String) (snapshot : ExecutionPlanSnapshot ρ) :
    String :=
  taskId ++ ":plan:" ++ toString snapshot.content.planRevision ++ ":" ++ snapshot.snapshotHash

/-- The card before its schema has seen it. -/
def confirmationCard (workflowId requestId : String) (request : HarnessWorkflowInput ρ)
    (noteOutline : Option PaidGenerationNoteOutline) : QuestionCard where
  questionId := requestId
  workflowId := workflowId
  workflowRevision := request.workflowRevision
  question :=
    match request.executionConfirmationDiffFields.getD [] with
    | [] => merchantPaidGenerationConfirmationQuestion
    | diffFields => merchantPaidGenerationConfirmationQuestion ++ "（方案已变化：" ++
        String.intercalate ", " diffFields ++ "，请重新确认）"
  responseReason := merchantPaidGenerationConfirmationReason
  reservedCredits := request.executionConfirmationReservedCredits.filter (· ≠ 0)
  outline := noteOutline

/-- How a pass ends. -/
inductive GatePass (ρ : Type)
  | returns (request : HarnessWorkflowInput ρ)
  | continues (request : HarnessWorkflowInput ρ)

section Gate

variable {σ : Type} [DecidableEq ρ] {host : PlanHost ρ}
  (ports : ConfirmPaidGenerationPorts host σ) (workflowId : String)

/-- The progress, reported. -/
def report (event : ConfirmPaidGenerationProgressEvent) : GateM ρ σ Unit := do
  callPort (ports.reportProgress event)
  logEvent (.reported event)

/-- The stored decision, as `read` answers. -/
def readDecision
    (read : String → String → EStateM GateError σ (Option StoredPlanDecision))
    (workspaceId requestId : String) : GateM ρ σ (Option StoredPlanDecision) := do
  let decision ← callPort (read workspaceId requestId)
  logEvent (.decisionRead workspaceId requestId decision)
  return decision

/-- The live facts; none where nothing resolves them. -/
def resolveLiveFacts (request : HarnessWorkflowInput ρ) (snapshot : ExecutionPlanSnapshot ρ) :
    GateM ρ σ (Option SnapshotLiveFacts) := do
  match ports.resolveExecutionPlanLiveFacts with
  | none => return none
  | some resolve =>
    let live ← callPort (resolve workflowId request snapshot)
    logEvent (.liveFactsResolved snapshot live)
    return live

/-- The request of a successor at the present price. -/
def successorRequest (requestId : String) (request : HarnessWorkflowInput ρ)
    (execution : SnapshotOfSubmission) (pending : PendingExecutionPlanSnapshot ρ)
    (snapshot : ExecutionPlanSnapshot ρ) (live : SnapshotLiveFacts)
    (stale : List SnapshotStaleField) : RepricedPaidExecutionSuccessorRequest where
  workspaceId := request.workspaceId
  workflowId := workflowId
  submissionId := execution.id
  taskId := execution.taskId
  confirmationRequestId := requestId
  expectedSnapshotHash := pending.snapshotHash
  expectedQuoteRef :=
    { id := snapshot.content.quoteRef.id, revision := snapshot.content.quoteRef.revision.string }
  observedQuoteRevision :=
    (live.quoteRevision.getD snapshot.content.quoteRef.revision).string
  observedRightsRevisionRefs := live.rightsRevisionRefs.getD snapshot.content.rightsRevisionRefs
  observedFactRevisionRefs := live.factRevisionRefs.getD snapshot.content.factRevisionRefs
  diffFields := stale

/-- What a stale plan ends in: it always throws. -/
def refuseStale (requestId : String) (request : HarnessWorkflowInput ρ)
    (pending : PendingExecutionPlanSnapshot ρ) (snapshot : ExecutionPlanSnapshot ρ)
    (live : SnapshotLiveFacts) (stale : List SnapshotStaleField) : GateM ρ σ Unit := do
  if live.rightsRevoked = some true then
    throw (.safeStop "素材授权已撤销，已安全停止且不会重复扣费。")
  else
    match request.executionSnapshot, ports.createRepricedPaidExecutionSuccessor with
    | some execution, some create =>
      if .authorityRevisionRefs ∉ stale then
        let successor := successorRequest workflowId requestId request execution pending snapshot
          live stale
        logEvent (.successorRequested successor)
        let created ← callPort (create successor)
        match truthy created.requestId with
        | none => throw (.plain "Price-drift successor did not persist a confirmation request.")
        | some successorRequestId =>
          throw (.repricedSuccessorCreated workflowId requestId created.taskId successorRequestId)
      else throw (.requiresSuccessorAdmission workflowId requestId stale)
    | _, _ => throw (.requiresSuccessorAdmission workflowId requestId stale)

/-- What the live facts forbid. -/
def checkLiveFacts (requestId : String) (request : HarnessWorkflowInput ρ)
    (pending : PendingExecutionPlanSnapshot ρ) (snapshot : ExecutionPlanSnapshot ρ)
    (live : Option SnapshotLiveFacts) : GateM ρ σ Unit := do
  match live with
  | none => pure ()
  | some live =>
    if live.quoteMissing = some true then
      throw (.plain "Paid execution quote is missing after confirmation.")
    else
      match evaluateExecutionPlanStaleness snapshot live with
      | [] => pure ()
      | stale => refuseStale ports workflowId requestId request pending snapshot live stale

/-- The admission of a plan; the call is on record before it is answered. -/
def callAdmission (store : ExecutionPlanSnapshotStore host σ) (input : AdmitExecutionPlanInput ρ) :
    GateM ρ σ (ExecutionPlanSnapshot ρ) := do
  logEvent (.admissionCalled input)
  let s ← get
  callPort (liftAdmission
    (ExecutionPlanAdmissionService.admitExecutionPlanSnapshot store input (ports.now s.world)))

/-- What the admission of a plan is called with. -/
def admissionInput (request : HarnessWorkflowInput ρ) (snapshot : ExecutionPlanSnapshot ρ)
    (live : Option SnapshotLiveFacts) : AdmitExecutionPlanInput ρ where
  workflowId := executionPlanAdmissionWorkflowId workflowId snapshot
  workspaceId := request.workspaceId
  snapshot := snapshot
  live := live

/-- The rest of an admission, once a confirmed decision is read. -/
def admitDecided (requestId : String) (request : HarnessWorkflowInput ρ)
    (pending : PendingExecutionPlanSnapshot ρ) (decision : StoredPlanDecision)
    (store : ExecutionPlanSnapshotStore host σ) : GateM ρ σ (HarnessWorkflowInput ρ) := do
  let snapshot ← check ((host.buildExecutionPlanSnapshot pending.content
    (some pending.snapshotHash) (some decision.decisionId)).mapError .admission)
  let live ← resolveLiveFacts ports workflowId request snapshot
  checkLiveFacts ports workflowId requestId request pending snapshot live
  let admitted ← callAdmission ports store (admissionInput workflowId request snapshot live)
  return { request with executionPlanSnapshot := some admitted }

def admitConfirmedExecutionPlan (request : HarnessWorkflowInput ρ) :
    GateM ρ σ (HarnessWorkflowInput ρ) := do
  match request.pendingExecutionPlanSnapshot with
  | none => return request
  | some pending =>
    match ports.getExecutionConfirmationDecision, ports.executionPlanSnapshots with
    | some read, some store =>
      let requestId ← check (confirmationRequestId workflowId request)
      match ← readDecision read request.workspaceId requestId with
      | none => throw (.plain ("Paid execution confirmation " ++ requestId ++
          " has no immutable confirmed decision."))
      | some decision =>
        if decision.decision = .confirmed then
          admitDecided ports workflowId requestId request pending decision store
        else throw (.plain ("Paid execution confirmation " ++ requestId ++
          " has no immutable confirmed decision."))
    | _, _ => throw (.plain
        "Paid execution cannot start without confirmation decision and snapshot admission ports.")

/-- The end of a pass that has a confirmation. -/
def confirmedPass (request : HarnessWorkflowInput ρ) : GateM ρ σ (GatePass ρ) := do
  report ports acceptedProgress
  let confirmed ← admitConfirmedExecutionPlan ports workflowId request
  if confirmed.executionPlanSnapshot.isSome then return .returns confirmed
  else return .continues confirmed

/-- Whether the decision of a request is stored as confirmed. -/
def preConfirmed (requestId : String) (request : HarnessWorkflowInput ρ) : GateM ρ σ Bool := do
  match request.pendingExecutionPlanSnapshot, ports.getExecutionConfirmationDecision with
  | some _, some read =>
    let existing ← readDecision read request.workspaceId requestId
    return existing.any (·.decision = .confirmed)
  | _, _ => return false

/-- The question, and the answer of the merchant. -/
def askMerchant (requestId : String) (request : HarnessWorkflowInput ρ)
    (noteOutline : Option PaidGenerationNoteOutline) : GateM ρ σ StructuredDecisionInput := do
  match (confirmationCard workflowId requestId request noteOutline).parse with
  | none => throw .schema
  | some card =>
    report ports ⟨.suspended, card.question⟩
    let command ← callPort (ports.awaitResolvedDecision card)
    logEvent (.answered card command)
    return command

/-- **One pass of the gate.** -/
def confirmationPass (noteOutline : Option PaidGenerationNoteOutline)
    (request : HarnessWorkflowInput ρ) : GateM ρ σ (GatePass ρ) := do
  if !triggersPaidMediaExecution request then return .returns request
  else
    let requestId ← check (confirmationRequestId workflowId request)
    if ← preConfirmed ports requestId request then confirmedPass ports workflowId request
    else
      let command ← askMerchant ports workflowId requestId request noteOutline
      if command.approves then
        if request.pendingExecutionPlanSnapshot.isSome then confirmedPass ports workflowId request
        else
          report ports acceptedProgress
          return .returns request
      else
        let next ← callPort (ports.applyCurrentTaskDecision workflowId request command)
        logEvent (.applied next)
        return .continues next

/-- **The gate**: passes, until one returns. -/
def confirmPaidGenerationExecution (noteOutline : Option PaidGenerationNoteOutline) :
    Nat → HarnessWorkflowInput ρ → GateM ρ σ (HarnessWorkflowInput ρ)
  | 0, _ => throw .running
  | fuel + 1, request => do
    match ← confirmationPass ports workflowId noteOutline request with
    | .returns request => return request
    | .continues request => confirmPaidGenerationExecution noteOutline fuel request

end Gate

end MeiyeAgent
