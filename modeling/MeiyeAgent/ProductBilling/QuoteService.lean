import MeiyeAgent.ProductBilling.QuoteModel

/-!
# ProductBilling/QuoteService — the life of a quote

Quotes by their ids, the quote each task confirmed, and the two ledgers a quote moves: the usage of
its task and the costs of its attempts.  An operation that throws keeps what it has written.
-/

namespace MeiyeAgent

open Effect

structure ProductQuoteService where
  quotes : OrderedMap String ProductQuoteSnapshot
  taskIndex : OrderedMap String String
  usage : MemoryProductUsageLedger
  providerCosts : MemoryProviderCostSnapshotStore
  deriving DecidableEq

namespace ProductQuoteService

def empty : ProductQuoteService := ⟨.empty, .empty, .empty, .empty⟩

/-- The service with a quote stored. -/
def withQuote (service : ProductQuoteService) (quote : ProductQuoteSnapshot) :
    ProductQuoteService :=
  { service with quotes := service.quotes.set quote.quoteId quote }

def putQuote (quote : ProductQuoteSnapshot) : EStateM Thrown ProductQuoteService Unit :=
  modify (·.withQuote quote)

def onUsage {α : Type} (x : EStateM Thrown MemoryProductUsageLedger α) :
    EStateM Thrown ProductQuoteService α :=
  zoom (·.usage) (fun service usage => { service with usage }) x

def onCosts {α : Type} (x : EStateM Thrown MemoryProviderCostSnapshotStore α) :
    EStateM Thrown ProductQuoteService α :=
  zoom (·.providerCosts) (fun service providerCosts => { service with providerCosts }) x

def requireQuote (quoteId : String) : EStateM Thrown ProductQuoteService ProductQuoteSnapshot := do
  match (← get).quotes.get? quoteId with
  | some quote => return quote
  | none => throw (.domain .NOT_FOUND ("Quote " ++ quoteId ++ " was not found."))

/-- The usage record of a task, which must be there. -/
def requireUsage (taskId message : String) :
    EStateM Thrown ProductQuoteService ProductUsageRecord := do
  match (← get).usage.getByTask taskId with
  | some usage => return usage
  | none => throw (.domain .NOT_FOUND message)

/-- The task of a quote, which must be there. -/
def requireTask (quote : ProductQuoteSnapshot) (message : String) :
    EStateM Thrown ProductQuoteService String :=
  match present quote.taskId with
  | some taskId => pure taskId
  | none => throw (.domain .INVALID_STATE message)

variable (host : QuoteHost) (now : TimeValue)

/-! ## Building and confirming -/

def buildQuote (input : BuildProductQuoteInput) :
    EStateM Thrown ProductQuoteService ProductQuoteSnapshot := do
  check (checkQuoteInput input)
  match (← get).quotes.get? input.quoteId with
  | some existing =>
    if existing.revision ≠ revisionFor host input then
      throw (.domain .IDEMPOTENCY_CONFLICT ("Quote " ++ input.quoteId ++
        " already exists with different facts."))
    return existing
  | none =>
    if input.authorizedCeiling.getD (quotedAmount input) < quotedAmount input then
      throw (.domain .INVALID_STATE "authorizedCeiling cannot be below confirmed amount.")
    if (present input.expiresAt).any fun expiresAt =>
        Num.le (host.dateParse expiresAt) (host.dateParse (isoText now)) then
      throw (.domain .INVALID_STATE "Quote expiry must be in the future.")
    let snapshot := newQuote host now input
    putQuote snapshot
    return snapshot

/-- The quote once it is confirmed. -/
def confirmed (quote : ProductQuoteSnapshot) (input : ConfirmQuoteInput) : ProductQuoteSnapshot :=
  let ceiling := (input.authorizedCeiling <|> quote.authorizedCeiling <|> quote.confirmedAmount).getD 0
  { quote with
    taskId := some input.taskId
    authorizedCeiling := some ceiling
    confirmedAmount := some (quote.confirmedAmount.getD ceiling)
    lifecycleStatus := .confirmed
    confirmedAt := some (isoText now) }

def confirm (input : ConfirmQuoteInput) :
    EStateM Thrown ProductQuoteService ProductQuoteSnapshot := do
  let quote ← requireQuote input.quoteId
  if Text.isBlank input.taskId then
    throw (.domain .INVALID_STATE "taskId is required to confirm.")
  if (present quote.taskId).any (· ≠ input.taskId) then
    throw (.domain .IDEMPOTENCY_CONFLICT ("Quote " ++ input.quoteId ++
      " is already bound to task " ++ quote.taskId.getD "" ++ "."))
  if quote.taskId = some input.taskId ∧ quote.lifecycleStatus ≠ .quoted then
    return quote
  if quote.lifecycleStatus ≠ .quoted ∧ quote.lifecycleStatus ≠ .confirmed then
    throw (.domain .INVALID_STATE ("Quote " ++ input.quoteId ++
      " cannot confirm from status " ++ quote.lifecycleStatus.name ++ "."))
  if (present ((← get).taskIndex.get? input.taskId)).any (· ≠ input.quoteId) then
    throw (.domain .IDEMPOTENCY_CONFLICT ("Task " ++ input.taskId ++
      " already has a confirmed quote."))
  if quote.lifecycleStatus = .confirmed ∧ quote.taskId = some input.taskId then
    return quote
  let next := confirmed now quote input
  modify fun service =>
    { service with
      quotes := service.quotes.set input.quoteId next
      taskIndex := service.taskIndex.set input.taskId input.quoteId }
  return next

/-! ## Reserving -/

/-- The units a quote may reserve. -/
def checkReservedUnits (quote : ProductQuoteSnapshot) (input : ReserveQuoteInput) :
    Except Thrown Unit :=
  match quote.creditCost with
  | some _ =>
    if input.units ≠ [] then
      throw (.domain .INVALID_STATE ("Credit quote " ++ input.quoteId ++
        " must not reserve legacy product units."))
    else pure ()
  | none => do
    assertProductUsageUnits input.units
    if quote.debitUnits.any fun units => ¬ sameProductUsageUnits units input.units then
      throw (.domain .INVALID_STATE ("Quote " ++ input.quoteId ++
        " reservation does not match the frozen debit preview."))

def reserve (input : ReserveQuoteInput) :
    EStateM Thrown ProductQuoteService (ProductQuoteSnapshot × ProductUsageRecord) := do
  let quote ← requireQuote input.quoteId
  if quote.lifecycleStatus ≠ .confirmed ∧ quote.lifecycleStatus ≠ .reserved ∧
      quote.lifecycleStatus ≠ .dispatched ∧ quote.lifecycleStatus ≠ .settled then
    throw (.domain .INVALID_STATE ("Quote " ++ input.quoteId ++
      " must be confirmed before reserve."))
  match present quote.taskId, present quote.workspaceId with
  | some taskId, some workspaceId =>
    check (checkReservedUnits quote input)
    let usage ← onUsage (MemoryProductUsageLedger.reserve
      { id := input.usageId.getD (usageIdFor host taskId quote.quoteId)
        taskId
        workspaceId
        quoteId := quote.quoteId
        units := some input.units
        credits := quote.creditCost
        billingMode := quote.billingMode
        createdAt := isoText now })
    if quote.lifecycleStatus = .confirmed then
      let next :=
        { quote with lifecycleStatus := .reserved, reservedAt := some (isoText now) }
      putQuote next
      return (next, usage)
    return (quote, usage)
  | _, _ =>
    throw (.domain .INVALID_STATE "Confirmed quote requires taskId and workspaceId for reserve.")

/-- The quote once another takes its reservation. -/
def released (previous : ProductQuoteSnapshot) : ProductQuoteSnapshot :=
  { previous with
    taskId := none
    lifecycleStatus := .refunded
    settlementStatus := some .reconciled
    settledAmount := some 0
    refundedAmount := some ((previous.authorizedCeiling <|> previous.confirmedAmount <|>
      previous.creditCost.map fun credits => (credits : ℚ)).getD 0)
    settledAt := some (isoText now) }

/-- Is this the reserved quote of the task, with its usage? -/
def isReservedQuote (previous : ProductQuoteSnapshot) (usage : Option ProductUsageRecord)
    (input : ReplaceReservedQuoteInput) : Bool :=
  previous.revision = input.previousQuoteRevision ∧ previous.taskId = some input.taskId ∧
    previous.lifecycleStatus = .reserved ∧ usage.any fun usage =>
      usage.status = .reserved ∧ usage.quoteId = previous.quoteId ∧ usage.id = input.usageId

def replaceReservedQuote (input : ReplaceReservedQuoteInput) : EStateM Thrown ProductQuoteService
    (ProductQuoteSnapshot × ProductQuoteSnapshot × ProductUsageRecord) := do
  let previous ← requireQuote input.previousQuoteId
  if ¬ isReservedQuote previous ((← get).usage.getByTask input.taskId) input then
    throw (.domain .IDEMPOTENCY_CONFLICT
      "Plan reprice requires the exact current reserved quote and usage.")
  if input.successor.workspaceId ≠ previous.workspaceId then
    throw (.domain .INVALID_STATE "Successor quote must stay inside the current workspace.")
  let successor ← buildQuote host now input.successor
  putQuote (released now previous)
  modify fun service => { service with taskIndex := service.taskIndex.erase input.taskId }
  let confirmed ← confirm now { quoteId := successor.quoteId, taskId := input.taskId }
  let replacedUsage ← onUsage (MemoryProductUsageLedger.replaceReservation
    { id := input.usageId
      expectedQuoteId := previous.quoteId
      quoteId := confirmed.quoteId
      taskId := input.taskId
      workspaceId := previous.workspaceId.getD ""
      units := some (if confirmed.creditCost.isSome then [] else confirmed.debitUnits.getD [])
      credits := confirmed.creditCost
      billingMode := confirmed.billingMode
      createdAt := isoText now })
  let reserved :=
    { confirmed with lifecycleStatus := .reserved, reservedAt := some (isoText now) }
  putQuote reserved
  return (released now previous, reserved, replacedUsage)

/-! ## Dispatching -/

def assertCandidateAllowed (quote : ProductQuoteSnapshot) (deploymentId : String) :
    Except Thrown Unit :=
  match quote.frozenCandidateDeploymentIds with
  | none | some [] => pure ()
  | some frozen =>
    if deploymentId ∉ frozen then
      throw (.domain .INVALID_STATE ("Deployment " ++ deploymentId ++
        " is outside the frozen fallback candidate set."))
    else pure ()

/-- A reserved quote becomes dispatched. -/
def markDispatched (quote : ProductQuoteSnapshot) :
    EStateM Thrown ProductQuoteService ProductQuoteSnapshot := do
  if quote.lifecycleStatus = .reserved then
    let next := { quote with lifecycleStatus := .dispatched }
    putQuote next
    return next
  return quote

/-- The cost of an attempt, saved if there is a task to save it for. -/
def saveAttemptCost (quote : ProductQuoteSnapshot) (attemptId deploymentId : String)
    (facts : Option ProviderCostFacts) :
    EStateM Thrown ProductQuoteService (Option ProviderCostSnapshot) :=
  match facts, present quote.taskId with
  | some facts, some taskId => do
    let snapshot ← check (buildProviderCostSnapshot attemptId taskId deploymentId facts)
    some <$> onCosts (MemoryProviderCostSnapshotStore.save snapshot)
  | _, _ => pure none

def dispatch (input : DispatchQuoteInput) : EStateM Thrown ProductQuoteService
    (ProductQuoteSnapshot × Option ProviderCostSnapshot) := do
  let quote ← requireQuote input.quoteId
  if quote.lifecycleStatus ≠ .reserved ∧ quote.lifecycleStatus ≠ .dispatched then
    throw (.domain .INVALID_STATE ("Quote " ++ input.quoteId ++
      " must be reserved before dispatch."))
  check (assertCandidateAllowed quote input.deploymentId)
  let providerCost ← saveAttemptCost quote input.attemptId input.deploymentId input.providerCost
  return (← markDispatched quote, providerCost)

/-- What a fallback's attempt costs: what is said of it, or nothing known. -/
def fallbackCost (quote : ProductQuoteSnapshot) (input : FallbackDispatchInput) :
    ProviderCostFacts :=
  let facts := input.providerCost.getD
    { supplierPriceRevision := "fallback-unknown"
      billingMode := quote.billingMode
      unitPriceMicros := 0
      currency := quote.formula.currency.getD "CNY"
      unit := "request" }
  { facts with
    supplyCostDeltaMicros := input.supplyCostDeltaMicros <|> facts.supplyCostDeltaMicros }

def fallbackDispatch (input : FallbackDispatchInput) : EStateM Thrown ProductQuoteService
    (ProductQuoteSnapshot × Option ProviderCostSnapshot) := do
  let quote ← requireQuote input.quoteId
  if quote.lifecycleStatus ≠ .dispatched ∧ quote.lifecycleStatus ≠ .reserved then
    throw (.domain .INVALID_STATE ("Fallback requires a reserved/dispatched quote (got " ++
      quote.lifecycleStatus.name ++ ")."))
  check (assertCandidateAllowed quote input.deploymentId)
  let service ← get
  if (present quote.taskId).any fun taskId =>
      ¬ (service.usage.getByTask taskId).any (·.status = .reserved) then
    throw (.domain .INVALID_STATE
      "Fallback cannot re-charge product usage; expected a single reserved entry.")
  let providerCost ← saveAttemptCost quote input.attemptId input.deploymentId
    (some (fallbackCost quote input))
  return (← markDispatched quote, providerCost)

/-! ## Settling -/

/-- The quote once it is settled, or refunded where nothing is charged. -/
def settledQuote (quote : ProductQuoteSnapshot) (settlementStatus : ProductSettlementStatus)
    (amount refundedAmount : ℚ) : ProductQuoteSnapshot :=
  { quote with
    lifecycleStatus := if amount = 0 then .refunded else .settled
    settlementStatus := some settlementStatus
    settledAmount := some amount
    refundedAmount := some refundedAmount
    settledAt := some (isoText now) }

/-- The amount over the ceiling, put on the supplier's cost of the attempt. -/
def absorb (input : SettleQuoteInput) (platformAbsorbedAmount : ℚ) :
    EStateM Thrown ProductQuoteService Unit := do
  match (present input.attemptId).bind (← get).providerCosts.byAttempt.get? with
  | some existing =>
    let costMicros := Doubles.rounded (platformAbsorbedAmount *
      input.overproductionUnitCostMicros.getD existing.unitPriceMicros)
    let absorbed ← check (absorbOverproductionToSupplyCost existing costMicros)
    let _ ← onCosts (MemoryProviderCostSnapshotStore.save absorbed)
  | none => pure ()

/-- The settlement of the usage of a quote of credits. -/
def creditUsage (taskId : String) (settlement : CreditSettlement) : SettleProductUsageInput where
  taskId := taskId
  settledUnits := some []
  refundCredits := if settlement.refundCredits > 0 then some settlement.refundCredits else none
  settlementStatus := if settlement.settledCredits.isSome then .reconciled else .estimated
  updatedAt := isoText now

/-- A quote of credits, charged for what stays settled. -/
def creditQuote (quote : ProductQuoteSnapshot) (creditCost : Int) (settlement : CreditSettlement) :
    ProductQuoteSnapshot :=
  let amount := creditAmount (ceiling quote) creditCost settlement.settledCredits
  settledQuote now quote (if settlement.settledCredits.isSome then .reconciled else .estimated)
    amount (Doubles.rounded (ceiling quote - amount))

def settleCredits (quote : ProductQuoteSnapshot) (taskId : String) (creditCost : Int)
    (settlement : CreditSettlement) :
    EStateM Thrown ProductQuoteService (ProductQuoteSnapshot × ProductUsageRecord) := do
  let usage ← onUsage (MemoryProductUsageLedger.settle (creditUsage now taskId settlement))
  let next := creditQuote now quote creditCost settlement
  putQuote next
  return (next, usage)

/-- The settlement of the usage of a quote of units. -/
def unitUsage (taskId : String) (settlement : UnitSettlement) : SettleProductUsageInput where
  taskId := taskId
  settledUnits := some settlement.units
  settlementStatus := settlement.settlementStatus
  updatedAt := isoText now

/-- A quote of units, charged as it settles. -/
def unitQuote (quote : ProductQuoteSnapshot) (settlement : UnitSettlement) : ProductQuoteSnapshot :=
  { settledQuote now quote settlement.settlementStatus settlement.amount
      settlement.refundedAmount with
    platformAbsorbedAmount :=
      if settlement.platformAbsorbedAmount > 0 then some settlement.platformAbsorbedAmount
      else quote.platformAbsorbedAmount
    billedSeconds := settlement.billedSeconds <|> quote.billedSeconds }

def settleUnits (quote : ProductQuoteSnapshot) (taskId : String) (input : SettleQuoteInput)
    (settlement : UnitSettlement) :
    EStateM Thrown ProductQuoteService (ProductQuoteSnapshot × ProductUsageRecord) := do
  if settlement.platformAbsorbedAmount > 0 then
    absorb input settlement.platformAbsorbedAmount
  let usage ← onUsage (MemoryProductUsageLedger.settle (unitUsage now taskId settlement))
  let next := unitQuote now quote settlement
  putQuote next
  return (next, usage)

def settle (input : SettleQuoteInput) :
    EStateM Thrown ProductQuoteService (ProductQuoteSnapshot × ProductUsageRecord) := do
  let quote ← requireQuote input.quoteId
  if quote.lifecycleStatus ≠ .dispatched ∧ quote.lifecycleStatus ≠ .reserved ∧
      quote.lifecycleStatus ≠ .settled then
    throw (.domain .INVALID_STATE ("Quote " ++ input.quoteId ++ " cannot settle from status " ++
      quote.lifecycleStatus.name ++ "."))
  let taskId ← requireTask quote "Quote taskId is required for settle."
  if quote.lifecycleStatus = .settled then
    let usage ← requireUsage taskId ("Settled quote " ++ input.quoteId ++
      " is missing product usage.")
    return (quote, usage)
  let reservedUsage ← requireUsage taskId ("Quote " ++ input.quoteId ++
    " is missing product usage.")
  match quote.creditCost with
  | some creditCost =>
    settleCredits now quote taskId creditCost (← check (creditSettlement quote creditCost input))
  | none =>
    settleUnits now quote taskId input
      (← check (unitSettlement quote reservedUsage input.trustedUsage))

/-! ## Failing -/

/-- What a failed package comes to: nothing delivered, each allocation by its own policy. -/
def packageFailure (contract : ProductQuotePackageContract) : Except Thrown CreditSettlement := do
  let settlement ← computePackagePartialCreditSettlement contract.allocations
    ⟨contract.allocations.map fun allocation => ⟨allocation.allocationId, 0⟩⟩
  return ⟨settlement.refundCredits, some settlement.settledCredits⟩

/-- A quote of credits that failed: all of them go back, or none. -/
def failedQuote (quote : ProductQuoteSnapshot) (refundCredits : Bool) : ProductQuoteSnapshot :=
  { quote with
    lifecycleStatus := if refundCredits then .refunded else .settled
    settlementStatus := some .reconciled
    settledAmount := some (if refundCredits then 0 else ceiling quote)
    refundedAmount := some (if refundCredits then ceiling quote else 0)
    settledAt := some (isoText now) }

def failCredits (quote : ProductQuoteSnapshot) (taskId : String) (refundCredits : Bool) :
    EStateM Thrown ProductQuoteService (ProductQuoteSnapshot × ProductUsageRecord) := do
  let usage ← onUsage (
    if refundCredits then
      MemoryProductUsageLedger.refund
        { taskId, remainingUnits := some [], updatedAt := isoText now }
    else
      MemoryProductUsageLedger.settle
        { taskId
          settledUnits := some []
          settlementStatus := .reconciled
          updatedAt := isoText now })
  let next := failedQuote now quote refundCredits
  putQuote next
  return (next, usage)

/-- A quote of units that failed, charged for what remains. -/
def refundedQuote (quote : ProductQuoteSnapshot) (settlement : UnitSettlement) :
    ProductQuoteSnapshot :=
  { settledQuote now quote settlement.settlementStatus settlement.amount
      (Doubles.rounded (ceiling quote - settlement.amount)) with
    billedSeconds := settlement.billedSeconds <|> quote.billedSeconds }

def failUnits (quote : ProductQuoteSnapshot) (taskId : String) (settlement : UnitSettlement) :
    EStateM Thrown ProductQuoteService (ProductQuoteSnapshot × ProductUsageRecord) := do
  let usage ← onUsage (MemoryProductUsageLedger.refund
    { taskId, remainingUnits := some settlement.units, updatedAt := isoText now })
  let next := refundedQuote now quote settlement
  putQuote next
  return (next, usage)

def failAndRefund (input : FailAndRefundInput) :
    EStateM Thrown ProductQuoteService (ProductQuoteSnapshot × ProductUsageRecord) := do
  let quote ← requireQuote input.quoteId
  let taskId ← requireTask quote "Quote taskId is required for fail/refund."
  let reservedUsage ← requireUsage taskId ("Quote " ++ input.quoteId ++
    " is missing product usage.")
  if quote.lifecycleStatus = .settled ∨ quote.lifecycleStatus = .refunded then
    return (quote, reservedUsage)
  let forced : Bool := input.forceCreditRefund = some true
  match quote.creditCost, quote.packageContract.filter fun _ => ¬ forced with
  | some creditCost, some contract =>
    settleCredits now quote taskId creditCost (← check (packageFailure contract))
  | some _, none =>
    failCredits now quote taskId (forced || quote.failureRefundsCredits = some true)
  | none, _ =>
    failUnits now quote taskId (← check (unitRefund quote reservedUsage input.trustedUsage))

end ProductQuoteService

/-! ## Runs -/

inductive QuoteCall
  | buildQuote (input : BuildProductQuoteInput)
  | confirm (input : ConfirmQuoteInput)
  | reserve (input : ReserveQuoteInput)
  | replaceReservedQuote (input : ReplaceReservedQuoteInput)
  | dispatch (input : DispatchQuoteInput)
  | fallbackDispatch (input : FallbackDispatchInput)
  | settle (input : SettleQuoteInput)
  | failAndRefund (input : FailAndRefundInput)

/-- What a call returns. -/
inductive QuoteAnswer
  | quote (quote : ProductQuoteSnapshot)
  | charged (quote : ProductQuoteSnapshot) (usage : ProductUsageRecord)
  | replaced (previous quote : ProductQuoteSnapshot) (usage : ProductUsageRecord)
  | dispatched (quote : ProductQuoteSnapshot) (providerCost : Option ProviderCostSnapshot)
  deriving DecidableEq

namespace ProductQuoteService

def perform (host : QuoteHost) (now : TimeValue) :
    QuoteCall → EStateM Thrown ProductQuoteService QuoteAnswer
  | .buildQuote input => .quote <$> buildQuote host now input
  | .confirm input => .quote <$> confirm now input
  | .reserve input => (fun (q, u) => .charged q u) <$> reserve host now input
  | .replaceReservedQuote input =>
    (fun (p, q, u) => .replaced p q u) <$> replaceReservedQuote host now input
  | .dispatch input => (fun (q, c) => .dispatched q c) <$> dispatch input
  | .fallbackDispatch input => (fun (q, c) => .dispatched q c) <$> fallbackDispatch input
  | .settle input => (fun (q, u) => .charged q u) <$> settle now input
  | .failAndRefund input => (fun (q, u) => .charged q u) <$> failAndRefund now input

/-- **The host of concrete runs**: one revision for all facts, and the text a usage id is made of. -/
def isoQuoteHost : QuoteHost where
  toHost := isoHost
  revisionDigest _ := "revision"
  usageDigest text := text
  numberText _ := "1"

/-- A call, and the instant the clock shows. -/
abbrev TimedCall := TimeValue × QuoteCall

/-- The service a call leaves. -/
def step (host : QuoteHost) (service : ProductQuoteService) (call : TimedCall) :
    ProductQuoteService :=
  final (perform host call.1 call.2) service

end ProductQuoteService

end MeiyeAgent
