import MeiyeAgent.AgentSession.SteeringClassifier

/-!
# AgentSession/SteeringService — what a steering instruction announces, and what it bills

A submission classifies the instruction and stores a command.  Its answer announces a charge for
the units that are no longer `pending`; what is billed are the completed units of a
`derived_revision`, when its launch comes.  The two rules stand side by side here.
-/

namespace MeiyeAgent

/-! ## Commands -/

inductive GateReason
  | enabled
  | featureFlagOff
  | killSwitch
  deriving DecidableEq

structure MakeSteeringGate where
  enabled : Bool
  reason : GateReason
  deriving DecidableEq

inductive SteeringApplicationStatus
  | accepted
  | queuedSteer
  | queuedFollowUp
  | requiresReplanConfirm
  | rejectedUnsafe
  | disabled
  | consumerPending
  deriving DecidableEq

structure MakeSteeringCommand where
  commandId : String
  threadId : String
  taskId : String
  workId : Option String
  sourcePlanRevision : Int
  sourceContentVersionIds : List String
  snapshotHash : Option String
  instruction : String
  classification : SteeringClassification
  affectedUnitIds : List String
  queueMode : SteeringQueueMode
  createdAt : String
  actorId : String
  deriving DecidableEq

structure StoredSteeringCommand where
  command : MakeSteeringCommand
  workspaceId : String
  applicationStatus : SteeringApplicationStatus
  impactSummary : String
  deriving DecidableEq

/-- A list of identifiers, `.max(most)`. -/
def parseIds (most : Nat) (ids : List String) : Option (List String) :=
  if ids.length ≤ most then ids.mapM parseTrimmed else none

/-- `steeringClassificationSchema`. -/
def SteeringClassification.parse : SteeringClassification → Option SteeringClassification
  | futureStepPatch units => do
    let units ← parseIds 100 units
    if units = [] then none else pure (futureStepPatch units)
  | derivedRevision units requiresRequote => do
    pure (derivedRevision (← parseIds 100 units) requiresRequote)
  | planChange reason => do pure (planChange (← parseTrimmedMost 2000 reason))
  | unsafeOrConflicting reason => do pure (unsafeOrConflicting (← parseTrimmedMost 2000 reason))

/-- `makeSteeringCommandSchema`. -/
def MakeSteeringCommand.parse (c : MakeSteeringCommand) : Option MakeSteeringCommand := do
  let commandId ← parseTrimmed c.commandId
  let threadId ← parseTrimmed c.threadId
  let taskId ← parseTrimmed c.taskId
  let workId ← c.workId.mapM parseTrimmed
  let sourceContentVersionIds ← parseIds 50 c.sourceContentVersionIds
  let snapshotHash ← c.snapshotHash.mapM (parseTrimmedMost 128)
  let instruction ← parseTrimmedMost 4000 c.instruction
  let classification ← c.classification.parse
  let affectedUnitIds ← parseIds 100 c.affectedUnitIds
  let actorId ← parseTrimmed c.actorId
  if c.sourcePlanRevision < 1 then none
  else pure { c with commandId, threadId, taskId, workId, sourceContentVersionIds, snapshotHash,
                     instruction, classification, affectedUnitIds, actorId }

/-! ## The impact projection -/

structure SteeringImpactProjection where
  affectedLabels : List String
  preservedLabels : List String
  rebilled : Bool
  alreadyInvokedUnitIds : List String
  requiresRequote : Bool
  requiresCorrection : Bool
  feeNote : String
  settledNote : Option String
  queueNote : Option String

def steeringQueueNote : SteeringApplicationStatus → Option String
  | .queuedSteer => some "当前这一步做完就按你的话改。"
  | .queuedFollowUp => some "整套做完之后再按你的话处理。"
  | _ => none

def steeringUnitLabel (units : List SteeringUnitProgress) (unitId : String) : String :=
  match units.find? (·.unitId == unitId) with
  | none => "这一步"
  | some unit =>
    match unit.label.filter (· ≠ ""), unit.pageIndex with
    | some label, _ => label
    | none, some index => if index = 0 then "封面" else "第" ++ toString (index + 1) ++ "页"
    | none, none => "这一步"

/-- `pending` is the only status whose upstream call has not gone out. -/
def steeringUnitAlreadyInvoked (units : List SteeringUnitProgress) (unitId : String) : Bool :=
  (units.find? (·.unitId == unitId)).any (·.status ≠ .pending)

def joinMerchantClauses (parts : List String) : String :=
  Text.join '；' (parts.filter (· ≠ "")) ++ "。"

def SteeringClassification.isDerived : SteeringClassification → Bool
  | derivedRevision _ _ => true
  | _ => false

def SteeringClassification.isPlanChange : SteeringClassification → Bool
  | planChange _ => true
  | _ => false

def SteeringClassification.isUnsafe : SteeringClassification → Bool
  | unsafeOrConflicting _ => true
  | _ => false

/-- The sentence on the charge. -/
def steeringFeeNote (units : List SteeringUnitProgress) (classification : SteeringClassification)
    (affectedUnitIds preservedUnitIds : List String) (rebilled : Bool)
    (quotedCredits : Option Nat) : String :=
  let label := steeringUnitLabel units
  let affectedLabels := affectedUnitIds.map label
  let target := if affectedLabels ≠ [] then Text.join '、' affectedLabels else "改动的页"
  let billedLabels := (affectedUnitIds.filter (steeringUnitAlreadyInvoked units)).map label
  let pendingLabels := (affectedUnitIds.filter (!steeringUnitAlreadyInvoked units ·)).map label
  let billedTarget := if billedLabels ≠ [] then Text.join '、' billedLabels else target
  if classification.isUnsafe then ""
  else if classification.isPlanChange then
    "这次改动会动到方案范围，积分要重新算一次，确认后才继续。"
  else if rebilled then
    joinMerchantClauses
      [match quotedCredits with
        | some credits => billedTarget ++ "会按你的改法重新生成并计 " ++ toString credits ++ " 积分"
        | none => billedTarget ++ "会按你的改法重新生成，按正常生成一样算积分",
      if pendingLabels ≠ [] then
        Text.join '、' pendingLabels ++ "还没开始做，直接按你的话调整，不额外算积分" else "",
      if preservedUnitIds ≠ [] then "其余页不动，不另算积分" else ""]
  else target ++ "还没开始做，直接按你的话调整，不额外算积分" ++
    (if preservedUnitIds ≠ [] then "；其余页也不受影响" else "") ++ "。"

def projectSteeringImpact (units : List SteeringUnitProgress)
    (classification : SteeringClassification) (applicationStatus : SteeringApplicationStatus)
    (affectedUnitIds preservedUnitIds : List String) (quotedCredits : Option Nat) :
    SteeringImpactProjection :=
  let alreadyInvokedUnitIds := affectedUnitIds.filter (steeringUnitAlreadyInvoked units)
  let rebilled := !classification.isPlanChange && !classification.isUnsafe &&
    (classification.isDerived || decide (alreadyInvokedUnitIds ≠ []))
  { affectedLabels := affectedUnitIds.map (steeringUnitLabel units)
    preservedLabels := preservedUnitIds.map (steeringUnitLabel units)
    rebilled
    alreadyInvokedUnitIds
    requiresRequote := classification.isPlanChange
    requiresCorrection := classification.isUnsafe
    feeNote := steeringFeeNote units classification affectedUnitIds preservedUnitIds rebilled
      (quotedCredits.filter (1 ≤ ·))
    settledNote := if rebilled then some "之前已经生成的那次照常计费、不退回，原来那版也会留着。" else none
    queueNote := steeringQueueNote applicationStatus }

/-- The count a preview is asked for, where it is asked at all. -/
def previewedCount (units : List SteeringUnitProgress) (affectedUnitIds : List String) :
    Option Nat :=
  let alreadyInvokedCount := (affectedUnitIds.filter (steeringUnitAlreadyInvoked units)).length
  if alreadyInvokedCount < 1 then none else some alreadyInvokedCount

/-- `quotedCreditsFor`; `previewDerivedQuote` answers `none` where it has no quote or throws. -/
def quotedCreditsFor (previewDerivedQuote : Nat → Option Nat) (units : List SteeringUnitProgress)
    (affectedUnitIds : List String) : Option Nat :=
  ((previewedCount units affectedUnitIds).bind previewDerivedQuote).filter (1 ≤ ·)

/-! ## Submissions -/

inductive SteeringServiceErrorCode
  | invalidInput
  | idempotencyConflict
  | queueNotReady
  deriving DecidableEq

inductive SteeringError
  /-- A `SteeringServiceError`. -/
  | service (code : SteeringServiceErrorCode) (message : String) (status : Nat)
  /-- A `ZodError`, or the classifier's own error. -/
  | refused
  deriving DecidableEq

structure SubmitSteeringInput where
  commandId : String
  workspaceId : String
  threadId : String
  taskId : String
  workId : Option String := none
  actorId : String
  instruction : String
  sourcePlanRevision : Int
  sourceContentVersionIds : List String := []
  snapshotHash : Option String := none
  units : List SteeringUnitProgress
  queueModeHint : Option SteeringQueueMode := none
  signals : SteeringClassifySignals := {}
  createdAt : String
  applyImmediately : Bool := false

inductive SteeringNextAction
  | applyPatch
  | queueWait
  | createDerivedRevision
  | replanRequoteConfirm
  | askMerchantCorrect
  | disabled
  deriving DecidableEq

structure SubmitSteeringResult where
  stored : StoredSteeringCommand
  preservedUnitIds : List String
  affectedUnitIds : List String
  impact : SteeringImpactProjection
  nextAction : SteeringNextAction

def resolveApplicationStatus (classification : SteeringClassification)
    (queueMode : SteeringQueueMode) (applyImmediately : Bool) : SteeringApplicationStatus :=
  if classification.isUnsafe then .rejectedUnsafe
  else if classification.isPlanChange then .requiresReplanConfirm
  else if applyImmediately then .accepted
  else match queueMode with
    | .followUp => .queuedFollowUp
    | .steer => .queuedSteer

def nextActionOf (classification : SteeringClassification) (status : SteeringApplicationStatus) :
    SteeringNextAction :=
  if status = .disabled then .disabled
  else match classification with
    | .unsafeOrConflicting _ => .askMerchantCorrect
    | .planChange _ => .replanRequoteConfirm
    | .derivedRevision _ _ => .createDerivedRevision
    | .futureStepPatch _ =>
      if status = .queuedSteer ∨ status = .queuedFollowUp then .queueWait else .applyPatch

/-- The checks before anything is read. -/
def checkSubmission (input : SubmitSteeringInput) : Except SteeringError String :=
  let instruction := Text.trim input.instruction
  if instruction = "" then
    .error (.service .invalidInput "Steering instruction is required." 400)
  else if input.sourcePlanRevision < 1 then
    .error (.service .invalidInput
      "sourcePlanRevision must be a positive integer bound to the frozen plan." 400)
  else .ok instruction

/-- What the service throws of what another function throws. -/
def orRefused : Option α → Except SteeringError α
  | some a => .ok a
  | none => .error .refused

def classifySubmission (input : SubmitSteeringInput) (instruction : String) :
    Except SteeringError SteeringClassifyResult :=
  orRefused (classifySteeringInstruction
    ⟨instruction, input.units, input.queueModeHint, input.signals⟩)

def submittedCommand (input : SubmitSteeringInput) (instruction : String)
    (classified : SteeringClassifyResult) : Except SteeringError MakeSteeringCommand :=
  orRefused <| MakeSteeringCommand.parse
    { commandId := input.commandId
      threadId := input.threadId
      taskId := input.taskId
      workId := input.workId.filter (· ≠ "")
      sourcePlanRevision := input.sourcePlanRevision
      sourceContentVersionIds := input.sourceContentVersionIds
      snapshotHash := input.snapshotHash.filter (· ≠ "")
      instruction := instruction
      classification := classified.classification
      affectedUnitIds := classified.affectedUnitIds
      queueMode := classified.queueMode
      createdAt := input.createdAt
      actorId := input.actorId }

/-- The row of a submission the gate lets through, once its launch, if it is one, has returned. -/
def admittedRow (input : SubmitSteeringInput) (classified : SteeringClassifyResult)
    (command : MakeSteeringCommand) : StoredSteeringCommand :=
  { command
    workspaceId := input.workspaceId
    applicationStatus := resolveApplicationStatus classified.classification classified.queueMode
      input.applyImmediately
    impactSummary := classified.impactSummary }

/-- The row of a submission while steering is off. -/
def disabledRow (gate : MakeSteeringGate) (input : SubmitSteeringInput)
    (command : MakeSteeringCommand) : StoredSteeringCommand :=
  { command
    workspaceId := input.workspaceId
    applicationStatus := .disabled
    impactSummary := "中途干预已关闭（" ++
      (if gate.reason = .killSwitch then "kill switch" else "feature flag") ++ "）。" }

/-- The consumers the service has been given: is the derived workflow bound? -/
structure SteeringActionConsumers where
  derivedWorkflow : Bool
  deriving DecidableEq

def billedAffectedUnitIds (command : MakeSteeringCommand) (fallback : List String) : List String :=
  match command.classification with
  | .derivedRevision completedUnits _ => if completedUnits ≠ [] then completedUnits else fallback
  | _ => fallback

/-- `consumeDerivedRevision`: the units the derived workflow is launched for, if there is one and
the command names its work. -/
def consumeDerivedRevision (consumers : SteeringActionConsumers) (command : MakeSteeringCommand) :
    Except SteeringError (List String) :=
  if ¬ consumers.derivedWorkflow then
    .error (.service .queueNotReady
      "Derived-revision steering has no quoted execution consumer." 503)
  else if command.workId.isNone then
    .error (.service .queueNotReady
      "Derived-revision steering is missing its admitted source Work." 409)
  else .ok (billedAffectedUnitIds command command.affectedUnitIds)

/-- A derived revision accepted at once is launched in its own submission. -/
def launchAccepted (consumers : SteeringActionConsumers) (row : StoredSteeringCommand) :
    Except SteeringError Unit :=
  if row.applicationStatus = .accepted ∧ row.command.classification.isDerived then
    (consumeDerivedRevision consumers row.command).map fun _ => ()
  else .ok ()

/-- `submit` of a command id that no row has: the row it stores and the answer.  A launch that is
refused leaves the row `consumer_pending`, and there is no answer. -/
def submit (consumers : SteeringActionConsumers) (gate : MakeSteeringGate)
    (previewDerivedQuote : Nat → Option Nat) (input : SubmitSteeringInput) :
    Except SteeringError SubmitSteeringResult := do
  let instruction ← checkSubmission input
  let classified ← classifySubmission input instruction
  let command ← submittedCommand input instruction classified
  let row := if gate.enabled then admittedRow input classified command
    else disabledRow gate input command
  launchAccepted consumers row
  let quotedCredits := if gate.enabled then
    quotedCreditsFor previewDerivedQuote input.units classified.affectedUnitIds else none
  pure
    { stored := row
      preservedUnitIds := classified.preservedUnitIds
      affectedUnitIds := classified.affectedUnitIds
      impact := projectSteeringImpact input.units classified.classification row.applicationStatus
        classified.affectedUnitIds classified.preservedUnitIds quotedCredits
      nextAction := nextActionOf classified.classification row.applicationStatus }

/-! ## The launch of a derived revision -/

/-- The rows `listQueued` finds. -/
def StoredSteeringCommand.isQueued (row : StoredSteeringCommand) : Bool :=
  row.applicationStatus = .queuedSteer || row.applicationStatus = .queuedFollowUp ||
    (row.applicationStatus = .consumerPending && row.command.classification.isDerived)

/-- The units the derived workflow is launched for: in the submission where the row is accepted
there, else at the boundary that drains it from the queue, which fails where the consumer or the
work is missing.  Only a derived revision is launched. -/
def StoredSteeringCommand.launch (consumers : SteeringActionConsumers)
    (row : StoredSteeringCommand) : Option (List String) :=
  if (row.applicationStatus = .accepted || row.isQueued) && row.command.classification.isDerived
  then (consumeDerivedRevision consumers row.command).toOption else none

/-- The quantity the derived workflow has quoted and billed. -/
def billedQuantity (affectedUnitIds : List String) (preparedQuantity : Nat) : Nat :=
  if affectedUnitIds.length > 0 then affectedUnitIds.length else preparedQuantity

end MeiyeAgent
