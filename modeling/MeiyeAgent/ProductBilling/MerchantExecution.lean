import MeiyeAgent.Foundation.Json
import MeiyeAgent.Foundation.TextOrder
import MeiyeAgent.ProductBilling.QuoteModel

/-!
# ProductBilling/MerchantExecution — claiming a provider effect, and completing it

An effect of a task has one record: bound to its input, claimed by a worker, completed with a
result.  Each operation is one serialised transaction: it reads the task's quote and usage and the
record of the effect, and saves that record last, if at all.

* `claimMerchantExecution` — may this worker execute the effect?
* `completeMerchantExecution`, `settleDurableMerchantExecutionResult` — the result of a claim.
* `promoteMerchantExecution` — an auxiliary effect's result becomes the task's own.
-/

namespace MeiyeAgent

open Effect

/-! ## Data -/

/-- What the merchant asked to be executed. -/
structure MerchantExecutionInputSnapshot where
  input : Option (List (String × Json))
  instructions : Option String
  prompt : String
  schema : Option (List (String × Json))
  schemaName : Option String
  schemaRevision : Option String
  streaming : Option Bool

/-- The snapshot as a JSON value: what is not there is no field. -/
def MerchantExecutionInputSnapshot.toJson (snapshot : MerchantExecutionInputSnapshot) : Json :=
  .object ([
    some ("input", (snapshot.input.map Json.object).getD .null),
    snapshot.instructions.map fun text => ("instructions", .text text),
    some ("prompt", .text snapshot.prompt),
    snapshot.schema.map fun fields => ("schema", .object fields),
    snapshot.schemaName.map fun text => ("schemaName", .text text),
    snapshot.schemaRevision.map fun text => ("schemaRevision", .text text),
    snapshot.streaming.map fun streaming => ("streaming", .bool streaming)].filterMap id)

structure ClaimMerchantExecutionInput where
  catalogModelId : String
  operation : String
  outputCount : Int
  quoteRevision : String
  submissionContractHash : String
  submissionInputAssetsHash : Option String
  submissionPromptHash : Option String
  submissionReferenceAssetsHash : Option String
  targetSeconds : Option ℚ
  effectKey : String
  inputAssetsHash : String
  idempotencyKey : String
  inputSnapshot : MerchantExecutionInputSnapshot
  promptHash : String
  providerCatalogModelId : String
  providerOperation : String
  referenceAssetsHash : String
  taskId : String
  workspaceId : String

/-- What the contract of a claim is a digest of. -/
structure ContractFacts where
  catalogModelId : String
  operation : String
  outputCount : Int
  quoteRevision : String
  submissionContractHash : String
  submissionPromptHash : Option String
  submissionReferenceAssetsHash : Option String
  submissionInputAssetsHash : Option String
  targetSeconds : Option ℚ
  promptHash : String
  referenceAssetsHash : String
  inputAssetsHash : String
  effectKey : String
  inputSnapshot : MerchantExecutionInputSnapshot
  providerCatalogModelId : String
  providerOperation : String

def contractFacts (input : ClaimMerchantExecutionInput) : ContractFacts where
  catalogModelId := input.catalogModelId
  operation := input.operation
  outputCount := input.outputCount
  quoteRevision := input.quoteRevision
  submissionContractHash := input.submissionContractHash
  submissionPromptHash := input.submissionPromptHash
  submissionReferenceAssetsHash := input.submissionReferenceAssetsHash
  submissionInputAssetsHash := input.submissionInputAssetsHash
  targetSeconds := input.targetSeconds
  promptHash := input.promptHash
  referenceAssetsHash := input.referenceAssetsHash
  inputAssetsHash := input.inputAssetsHash
  effectKey := input.effectKey
  inputSnapshot := input.inputSnapshot
  providerCatalogModelId := input.providerCatalogModelId
  providerOperation := input.providerOperation

inductive MerchantExecutionStatus
  | bound
  | claimed
  | completed
  deriving DecidableEq, Repr

/-- One execution, by its effect key. -/
structure MerchantExecutionRecord where
  contractHash : String
  effectKey : String
  idempotencyKey : String
  inputSnapshot : MerchantExecutionInputSnapshot
  result : Option Json
  status : MerchantExecutionStatus
  taskId : String
  updatedAt : Option String
  workspaceId : String

structure BindMerchantExecutionInput where
  inputSnapshot : MerchantExecutionInputSnapshot
  quoteRevision : String
  taskId : String
  workspaceId : String

structure PromoteMerchantExecutionInput where
  quoteRevision : String
  sourceEffectKey : String
  taskId : String
  workspaceId : String

structure SettleDurableInput where
  effectKey : String
  result : Json
  taskId : String
  workspaceId : String

/-- **The host of the executions**: besides dates, the digest of a contract and that of a value's
canonical text. -/
structure ExecutionHost extends Host where
  contractDigest : ContractFacts → String
  fingerprintValue : Json → String

/-! ## Digests -/

section

variable (host : ExecutionHost)

def merchantExecutionContractHash (input : ClaimMerchantExecutionInput) : String :=
  host.contractDigest (contractFacts input)

def snapshotFingerprint (snapshot : MerchantExecutionInputSnapshot) : String :=
  host.fingerprintValue snapshot.toJson

structure MerchantExecutionInputHashes where
  inputAssetsHash : String
  promptHash : String
  referenceAssetsHash : String
  deriving DecidableEq, Repr

/-- The asset of an item, if it names one and its role. -/
def inputAsset (item : Json) : Option Json := do
  let assetId ← (item.field? "assetId").bind Json.text?
  let role ← (item.field? "role").bind Json.text?
  return .object [("assetId", .text assetId), ("role", .text role)]

def merchantExecutionInputHashes (input : MerchantExecutionInputSnapshot) :
    MerchantExecutionInputHashes :=
  let source := Json.object (input.input.getD [])
  let referenceAssetIds := sortTexts
    (((source.field? "referenceAssetIds").map Json.items).getD [] |>.filterMap Json.text?)
  let inputAssets := sortBy
    (fun left right =>
      some (host.localeCompare (host.fingerprintValue left) (host.fingerprintValue right)))
    (((source.field? "inputAssets").map Json.items).getD [] |>.filterMap inputAsset)
  { inputAssetsHash := host.fingerprintValue (.array inputAssets)
    promptHash := host.fingerprintValue (.text input.prompt)
    referenceAssetsHash := host.fingerprintValue (.array (referenceAssetIds.map .text)) }

end

def merchantExecutionResultJobId (result : Json) : Option String :=
  ((result.field? "jobId").bind Json.text?).filter fun jobId => ¬ Text.isBlank jobId

/-! ## Checks -/

/-- Whether a claim is covered by the quote and the usage reserved. -/
def merchantExecutionMatchesReservation (input : ClaimMerchantExecutionInput)
    (quote : Option ProductQuoteSnapshot) (usage : Option ProductUsageRecord) : Bool :=
  match quote, usage with
  | some quote, some usage =>
    quote.workspaceId = some input.workspaceId ∧ quote.taskId = some input.taskId ∧
      quote.revision = input.quoteRevision ∧
      (quote.lifecycleStatus = .reserved ∨ quote.lifecycleStatus = .dispatched) ∧
      quote.operation = some input.operation ∧ quote.catalogModelId = input.catalogModelId ∧
      quote.outputCount = some input.outputCount ∧
      quote.submissionContractHash = some input.submissionContractHash ∧
      quote.submissionPromptHash = input.submissionPromptHash ∧
      quote.submissionReferenceAssetsHash = input.submissionReferenceAssetsHash ∧
      quote.submissionInputAssetsHash = input.submissionInputAssetsHash ∧
      quote.targetSeconds = input.targetSeconds ∧ usage.workspaceId = input.workspaceId ∧
      usage.taskId = input.taskId ∧ usage.quoteId = quote.quoteId ∧ usage.status = .reserved
  | _, _ => false

/-- The reserved quote of a revision and its usage. -/
def exactReservedQuote (quote : Option ProductQuoteSnapshot) (usage : Option ProductUsageRecord)
    (workspaceId taskId quoteRevision : String) : Option ProductQuoteSnapshot :=
  quote.filter fun quote => usage.any fun usage =>
    quote.workspaceId = some workspaceId ∧ quote.taskId = some taskId ∧
      quote.revision = quoteRevision ∧
      (quote.lifecycleStatus = .reserved ∨ quote.lifecycleStatus = .dispatched) ∧
      usage.workspaceId = workspaceId ∧ usage.taskId = taskId ∧ usage.quoteId = quote.quoteId ∧
      usage.status = .reserved

def claimLeaseMs : Int := 60000

/-- Whether a claim may be taken over. -/
def merchantExecutionClaimExpired (host : ExecutionHost) (updatedAt : Option String)
    (now : TimeValue) : Bool :=
  ((present updatedAt).bind host.dateParse).any fun claimedAt => now - claimedAt ≥ claimLeaseMs

def merchantExecutionKey (taskId : String) : String := "merchant-execution:" ++ taskId

/-- The submission's three hashes are there. -/
def checkRootBinding (quote : ProductQuoteSnapshot) : Except Thrown Unit := do
  let rootBinding := [quote.submissionPromptHash, quote.submissionReferenceAssetsHash,
    quote.submissionInputAssetsHash].map fun hash => (present hash).isSome
  if rootBinding.any id ∧ rootBinding.any fun set => ¬ set then
    throw (.domain .INVALID_STATE "Merchant submission input binding is incomplete.")
  if rootBinding.all fun set => ¬ set then
    throw (.domain .INVALID_STATE
      "Merchant submission input must bind before primary provider input.")

/-! ## The store -/

/-- An effect: its workspace, its task and its key. -/
abbrev EffectKey := String × String × String

/-- The tables an execution reads and writes. -/
structure MerchantExecutionStore where
  quotes : OrderedMap (String × String) ProductQuoteSnapshot
  usage : OrderedMap (String × String) ProductUsageRecord
  executions : OrderedMap EffectKey MerchantExecutionRecord

/-- What an operation answers. -/
inductive ExecutionAnswer
  | done
  | execute (inputSnapshot : MerchantExecutionInputSnapshot)
  | in_progress
  | replay (result : Option Json)
  | result (result : Option Json)

namespace MerchantExecutionStore

def empty : MerchantExecutionStore := ⟨.empty, .empty, .empty⟩

/-- The row a record is saved as: a result is kept of a completed one only. -/
def row (databaseNow : String) (record : MerchantExecutionRecord) : MerchantExecutionRecord :=
  { record with
    result := if record.status = .completed then record.result else none
    updatedAt := some databaseNow }

/-- The store with a record saved. -/
def withExecution (store : MerchantExecutionStore) (databaseNow : String)
    (record : MerchantExecutionRecord) : MerchantExecutionStore :=
  { store with
    executions := store.executions.set (record.workspaceId, record.taskId, record.effectKey)
      (row databaseNow record) }

def saveMerchantExecution (databaseNow : String) (record : MerchantExecutionRecord) :
    EStateM Thrown MerchantExecutionStore Unit := do
  if record.status = .completed ∧ record.result.isNone then
    throw (.error
      "violates check constraint p1_product_billing_merchant_executions_result_check")
  modify (·.withExecution databaseNow record)

def requireWorkspace (workspaceId : String) : Except Thrown Unit :=
  if Text.isBlank workspaceId then
    throw (.domain .INVALID_STATE "workspaceId is required for durable product billing.")
  else pure ()

variable (host : ExecutionHost) (clock : TimeValue) (databaseNow : String)

/-! ## Binding and promoting -/

def bindMerchantExecutionInput (input : BindMerchantExecutionInput) :
    EStateM Thrown MerchantExecutionStore ExecutionAnswer := do
  check (requireWorkspace input.workspaceId)
  let store ← get
  let effectKey := merchantExecutionKey input.taskId
  let quote := store.quotes.get? (input.workspaceId, input.taskId)
  let existing := store.executions.get? (input.workspaceId, input.taskId, effectKey)
  if existing.any fun existing =>
      snapshotFingerprint host existing.inputSnapshot ≠
        snapshotFingerprint host input.inputSnapshot then
    throw (.domain .INVALID_STATE
      "Primary merchant execution input is already bound to another provider submission.")
  if existing.isSome ∧ quote.any fun quote =>
      quote.workspaceId = some input.workspaceId ∧ quote.taskId = some input.taskId ∧
        quote.revision = input.quoteRevision then
    return .done
  match exactReservedQuote quote (store.usage.get? (input.workspaceId, input.taskId))
      input.workspaceId input.taskId input.quoteRevision with
  | none => throw (.domain .INVALID_STATE
      "Primary merchant execution input must bind to the exact reserved credit quote.")
  | some quote =>
    check (checkRootBinding quote)
    saveMerchantExecution databaseNow
      { contractHash := host.fingerprintValue (.object [
          ("inputSnapshot", input.inputSnapshot.toJson),
          ("quoteRevision", .text input.quoteRevision)])
        effectKey
        idempotencyKey :=
          "merchant-execution-binding:" ++ input.taskId ++ ":" ++ input.quoteRevision
        inputSnapshot := input.inputSnapshot
        result := none
        status := .bound
        taskId := input.taskId
        updatedAt := none
        workspaceId := input.workspaceId }
    return .done

def promoteMerchantExecution (input : PromoteMerchantExecutionInput) :
    EStateM Thrown MerchantExecutionStore ExecutionAnswer := do
  check (requireWorkspace input.workspaceId)
  let rootEffectKey := merchantExecutionKey input.taskId
  if input.sourceEffectKey = rootEffectKey ∨
      ¬ Text.startsWith input.sourceEffectKey (rootEffectKey ++ ":") then
    throw (.domain .INVALID_STATE
      "Canonical merchant execution promotion requires an auxiliary task effect.")
  let promotionKey := "merchant-execution-promotion:" ++ input.sourceEffectKey
  let store ← get
  match store.executions.get? (input.workspaceId, input.taskId, rootEffectKey) with
  | some existing =>
    if existing.status = .completed ∧ existing.idempotencyKey = promotionKey then return .done
    throw (.domain .IDEMPOTENCY_CONFLICT ("Billing task " ++ input.taskId ++
      " already selected another canonical merchant execution."))
  | none =>
    let quote := exactReservedQuote (store.quotes.get? (input.workspaceId, input.taskId))
      (store.usage.get? (input.workspaceId, input.taskId)) input.workspaceId input.taskId
      input.quoteRevision
    let source := (store.executions.get?
      (input.workspaceId, input.taskId, input.sourceEffectKey)).filter fun source =>
        source.status = .completed ∧ source.idempotencyKey = input.sourceEffectKey ∧
          source.result.isSome
    match quote, source with
    | some _, some source =>
      saveMerchantExecution databaseNow
        { contractHash := host.fingerprintValue (.object [
            ("quoteRevision", .text input.quoteRevision),
            ("sourceContractHash", .text source.contractHash),
            ("sourceEffectKey", .text input.sourceEffectKey)])
          effectKey := rootEffectKey
          idempotencyKey := promotionKey
          inputSnapshot := source.inputSnapshot
          result := source.result
          status := .completed
          taskId := input.taskId
          updatedAt := none
          workspaceId := input.workspaceId }
      return .done
    | _, _ => throw (.domain .INVALID_STATE ("Canonical merchant execution requires a completed " ++
        "auxiliary effect on the exact reserved quote."))

/-! ## Claiming -/

/-- A claim whose hashes are not those of its input is refused. -/
def checkInputHashes (input : ClaimMerchantExecutionInput) : Except Thrown Unit :=
  if merchantExecutionInputHashes host input.inputSnapshot ≠
      ⟨input.inputAssetsHash, input.promptHash, input.referenceAssetsHash⟩ then
    throw (.domain .INVALID_STATE
      "Merchant execution hashes must match the exact provider input snapshot.")
  else pure ()

/-- The quote and usage of the claim's task match it. -/
def checkReservation (store : MerchantExecutionStore) (input : ClaimMerchantExecutionInput) :
    Except Thrown Unit :=
  if ¬ merchantExecutionMatchesReservation input
      (store.quotes.get? (input.workspaceId, input.taskId))
      (store.usage.get? (input.workspaceId, input.taskId)) then
    throw (.domain .INVALID_STATE
      "Merchant execution must exactly match the reserved credit quote contract.")
  else pure ()

/-- A claim of a bound effect. -/
def claimBound (store : MerchantExecutionStore) (existing : MerchantExecutionRecord)
    (input : ClaimMerchantExecutionInput) :
    EStateM Thrown MerchantExecutionStore ExecutionAnswer := do
  if input.effectKey ≠ merchantExecutionKey input.taskId ∨
      snapshotFingerprint host existing.inputSnapshot ≠
        snapshotFingerprint host input.inputSnapshot then
    throw (.domain .INVALID_STATE ("Billing task " ++ input.taskId ++
      " primary merchant execution does not match its server binding."))
  check (checkReservation store input)
  saveMerchantExecution databaseNow
    { existing with
      contractHash := merchantExecutionContractHash host input
      idempotencyKey := input.idempotencyKey
      status := .claimed }
  return .execute existing.inputSnapshot

/-- A claim of an effect that was claimed before. -/
def claimAgain (store : MerchantExecutionStore) (existing : MerchantExecutionRecord)
    (input : ClaimMerchantExecutionInput) :
    EStateM Thrown MerchantExecutionStore ExecutionAnswer := do
  if existing.contractHash ≠ merchantExecutionContractHash host input ∨
      existing.idempotencyKey ≠ input.idempotencyKey then
    throw (.domain .IDEMPOTENCY_CONFLICT ("Billing task " ++ input.taskId ++
      " is already bound to another merchant execution."))
  if existing.status = .completed then return .replay existing.result
  if ¬ merchantExecutionClaimExpired host existing.updatedAt clock then return .in_progress
  check (checkReservation store input)
  saveMerchantExecution databaseNow { existing with status := .claimed }
  return .execute existing.inputSnapshot

/-- The first claim of an effect. -/
def claimFirst (store : MerchantExecutionStore) (input : ClaimMerchantExecutionInput) :
    EStateM Thrown MerchantExecutionStore ExecutionAnswer := do
  if input.effectKey = merchantExecutionKey input.taskId then
    throw (.domain .INVALID_STATE
      "Primary merchant execution requires an exact server-owned provider input binding.")
  check (checkReservation store input)
  saveMerchantExecution databaseNow
    { contractHash := merchantExecutionContractHash host input
      effectKey := input.effectKey
      idempotencyKey := input.idempotencyKey
      inputSnapshot := input.inputSnapshot
      result := none
      status := .claimed
      taskId := input.taskId
      updatedAt := none
      workspaceId := input.workspaceId }
  return .execute input.inputSnapshot

/-- A claim is executed where the effect is bound, new, or left alone by its claimant. -/
def claimMerchantExecution (input : ClaimMerchantExecutionInput) :
    EStateM Thrown MerchantExecutionStore ExecutionAnswer := do
  check (requireWorkspace input.workspaceId)
  check (checkInputHashes host input)
  let store ← get
  match store.executions.get? (input.workspaceId, input.taskId, input.effectKey) with
  | some existing =>
    if existing.status = .bound then claimBound host databaseNow store existing input
    else claimAgain host clock databaseNow store existing input
  | none => claimFirst host databaseNow store input

/-! ## Completing -/

/-- The result of a claim is written once. -/
def completeMerchantExecution (input : ClaimMerchantExecutionInput) (result : Option Json) :
    EStateM Thrown MerchantExecutionStore ExecutionAnswer := do
  check (requireWorkspace input.workspaceId)
  let store ← get
  match (store.executions.get? (input.workspaceId, input.taskId, input.effectKey)).filter
      fun existing => existing.contractHash = merchantExecutionContractHash host input ∧
        existing.idempotencyKey = input.idempotencyKey with
  | none => throw (.domain .IDEMPOTENCY_CONFLICT ("Billing task " ++ input.taskId ++
      " merchant execution claim no longer matches."))
  | some existing =>
    if existing.status = .completed then return .result existing.result
    saveMerchantExecution databaseNow { existing with result, status := .completed }
    return .result result

/-- A durable result belongs to the task and carries a job. -/
def checkDurableResult (input : SettleDurableInput) : Except Thrown Unit := do
  let rootEffectKey := merchantExecutionKey input.taskId
  if input.effectKey ≠ rootEffectKey ∧
      ¬ Text.startsWith input.effectKey (rootEffectKey ++ ":") then
    throw (.domain .INVALID_STATE
      "Durable merchant execution result does not belong to its billing task.")
  if (merchantExecutionResultJobId input.result).isNone then
    throw (.domain .INVALID_STATE
      "Durable merchant execution result requires its persisted provider job.")

def settleDurableMerchantExecutionResult (input : SettleDurableInput) :
    EStateM Thrown MerchantExecutionStore ExecutionAnswer := do
  check (requireWorkspace input.workspaceId)
  check (checkDurableResult input)
  let store ← get
  match (store.executions.get? (input.workspaceId, input.taskId, input.effectKey)).filter
      fun existing => existing.idempotencyKey = input.effectKey ∧ existing.status ≠ .bound with
  | none => throw (.domain .INVALID_STATE
      "Durable merchant execution result requires its exact claimed effect.")
  | some existing =>
    if existing.status = .completed then
      if existing.result.map host.fingerprintValue = some (host.fingerprintValue input.result) then
        return .result existing.result
      throw (.domain .IDEMPOTENCY_CONFLICT
        "Durable merchant execution already completed with another result.")
    saveMerchantExecution databaseNow
      { existing with result := some input.result, status := .completed }
    return .result (some input.result)

end MerchantExecutionStore

/-! ## Runs -/

inductive ExecutionCall
  | bindMerchantExecutionInput (input : BindMerchantExecutionInput)
  | promoteMerchantExecution (input : PromoteMerchantExecutionInput)
  | claimMerchantExecution (input : ClaimMerchantExecutionInput)
  | completeMerchantExecution (input : ClaimMerchantExecutionInput) (result : Option Json)
  | settleDurableMerchantExecutionResult (input : SettleDurableInput)

/-- The effect whose record a call reads and saves. -/
def ExecutionCall.effect : ExecutionCall → EffectKey
  | bindMerchantExecutionInput input =>
    (input.workspaceId, input.taskId, merchantExecutionKey input.taskId)
  | promoteMerchantExecution input =>
    (input.workspaceId, input.taskId, merchantExecutionKey input.taskId)
  | claimMerchantExecution input => (input.workspaceId, input.taskId, input.effectKey)
  | completeMerchantExecution input _ => (input.workspaceId, input.taskId, input.effectKey)
  | settleDurableMerchantExecutionResult input =>
    (input.workspaceId, input.taskId, input.effectKey)

/-- **What happens**: a worker's call, at the instants its own clock and the database's show; or
another operation of the service, which leaves any quotes and usage. -/
inductive ExecutionEvent
  | call (clock : TimeValue) (databaseNow : String) (call : ExecutionCall)
  | billing (quotes : OrderedMap (String × String) ProductQuoteSnapshot)
      (usage : OrderedMap (String × String) ProductUsageRecord)

namespace MerchantExecutionStore

def perform (host : ExecutionHost) (clock : TimeValue) (databaseNow : String) :
    ExecutionCall → EStateM Thrown MerchantExecutionStore ExecutionAnswer
  | .bindMerchantExecutionInput input => bindMerchantExecutionInput host databaseNow input
  | .promoteMerchantExecution input => promoteMerchantExecution host databaseNow input
  | .claimMerchantExecution input => claimMerchantExecution host clock databaseNow input
  | .completeMerchantExecution input result =>
    completeMerchantExecution host databaseNow input result
  | .settleDurableMerchantExecutionResult input =>
    settleDurableMerchantExecutionResult host databaseNow input

/-- The store an event leaves. -/
def step (host : ExecutionHost) (store : MerchantExecutionStore) (event : ExecutionEvent) :
    MerchantExecutionStore :=
  match event with
  | .call clock databaseNow call => final (perform host clock databaseNow call) store
  | .billing quotes usage => { store with quotes, usage }

end MerchantExecutionStore

end MeiyeAgent
