import MeiyeAgent.ProductBilling.PartialDelivery
import MeiyeAgent.ProductBilling.ProviderCosts

/-!
# ProductBilling/QuoteModel — quotes, and the sums a quote is settled by

A quote freezes a price and is confirmed, reserved, dispatched and settled.  Its money is kept in
rational numbers, and what is computed of it is rounded as the numbers of the language are; credits
and units are integers.

* `checkQuoteInput`, `newQuote` — what a quote is built from.
* `creditSettlement`, `unitSettlement`, `unitRefund` — what settling and failing charge, computed
  from the quote, its usage and the evidence alone.
-/

namespace MeiyeAgent

open Effect

/-! ## Sums -/

def applyBillableSecondsRules (rawSeconds : ℚ) (minChargeSeconds roundingStepSeconds : Option ℚ) :
    ℚ :=
  let min := minChargeSeconds.getD 0
  let step := roundingStepSeconds.getD 1
  let floored := max rawSeconds min
  if step ≤ 1 then floored
  else Doubles.rounded (⌈Doubles.rounded (floored / step)⌉ * step)

def computeProductAmount (billingMode : ProductBillingMode) (unitRate : ℚ)
    (billableSeconds : Option ℚ) : ℚ :=
  match billingMode with
  | .per_request => unitRate
  | .per_output_second => Doubles.rounded (unitRate * billableSeconds.getD 0)

/-! ## Data -/

inductive ProductQuoteLifecycleStatus
  | quoted
  | confirmed
  | reserved
  | dispatched
  | settled
  | refunded
  | failed
  deriving DecidableEq, Repr

def ProductQuoteLifecycleStatus.name : ProductQuoteLifecycleStatus → String
  | quoted => "quoted"
  | confirmed => "confirmed"
  | reserved => "reserved"
  | dispatched => "dispatched"
  | settled => "settled"
  | refunded => "refunded"
  | failed => "failed"

structure ProductQuoteFormula where
  unitRate : ℚ
  currency : Option String
  expression : String
  deriving DecidableEq

structure ProductQuotePackageContract where
  contractHash : String
  allocations : List ProductQuotePackageAllocation
  deriving DecidableEq, Repr

structure ProductQuoteSnapshot where
  quoteId : String
  revision : String
  taskId : Option String
  workspaceId : Option String
  catalogModelId : String
  operation : Option String
  catalogModelRevision : Option String
  quotePolicyRevision : String
  submissionContractHash : Option String
  submissionPromptHash : Option String
  submissionReferenceAssetsHash : Option String
  submissionInputAssetsHash : Option String
  extraConfirmThreshold : ℚ
  billingMode : ProductBillingMode
  creditCost : Option Int
  failureRefundsCredits : Option Bool
  debitUnits : Option (List ProductUsageUnit)
  outputCount : Option Int
  packageContract : Option ProductQuotePackageContract
  outputLabel : Option String
  formula : ProductQuoteFormula
  targetSeconds : Option ℚ
  quotedSeconds : Option ℚ
  minChargeSeconds : Option ℚ
  roundingStepSeconds : Option ℚ
  confirmedAmount : Option ℚ
  authorizedCeiling : Option ℚ
  routeSnapshotRef : Option String
  frozenCandidateDeploymentIds : Option (List String)
  billedSeconds : Option ℚ
  settlementStatus : Option ProductSettlementStatus
  lifecycleStatus : ProductQuoteLifecycleStatus
  settledAmount : Option ℚ
  refundedAmount : Option ℚ
  platformAbsorbedAmount : Option ℚ
  createdAt : String
  expiresAt : Option String
  confirmedAt : Option String
  reservedAt : Option String
  settledAt : Option String
  deriving DecidableEq

structure BuildProductQuoteInput where
  quoteId : String
  catalogModelId : String
  operation : Option String := none
  catalogModelRevision : Option String := none
  quotePolicyRevision : String
  submissionContractHash : Option String := none
  submissionPromptHash : Option String := none
  submissionReferenceAssetsHash : Option String := none
  submissionInputAssetsHash : Option String := none
  billingMode : ProductBillingMode
  creditCost : Option Int := none
  failureRefundsCredits : Option Bool := none
  debitUnits : Option (List ProductUsageUnit) := none
  outputCount : Option Int := none
  packageContract : Option ProductQuotePackageContract := none
  outputLabel : Option String := none
  unitRate : ℚ
  currency : Option String := none
  formulaExpression : Option String := none
  targetSeconds : Option ℚ := none
  minChargeSeconds : Option ℚ := none
  roundingStepSeconds : Option ℚ := none
  routeSnapshotRef : Option String := none
  frozenCandidateDeploymentIds : Option (List String) := none
  workspaceId : Option String := none
  taskId : Option String := none
  authorizedCeiling : Option ℚ := none
  expiresAt : Option String := none
  deriving DecidableEq

/-- What the revision of a quote is a digest of. -/
structure RevisionFacts where
  billingMode : ProductBillingMode
  catalogModelId : String
  catalogModelRevision : Option String
  creditCost : Option Int
  debitUnits : Option (List ProductUsageUnit)
  failureRefundsCredits : Option Bool
  expiresAt : Option String
  minChargeSeconds : Option ℚ
  outputCount : Option Int
  outputLabel : Option String
  operation : Option String
  packageContract : Option ProductQuotePackageContract
  quotePolicyRevision : String
  submissionContractHash : Option String
  submissionPromptHash : Option String
  submissionReferenceAssetsHash : Option String
  submissionInputAssetsHash : Option String
  roundingStepSeconds : Option ℚ
  targetSeconds : Option ℚ
  unitRate : ℚ
  deriving DecidableEq

def revisionFacts (input : BuildProductQuoteInput) : RevisionFacts where
  billingMode := input.billingMode
  catalogModelId := input.catalogModelId
  catalogModelRevision := input.catalogModelRevision
  creditCost := input.creditCost
  debitUnits := input.debitUnits
  failureRefundsCredits := input.failureRefundsCredits
  expiresAt := input.expiresAt
  minChargeSeconds := input.minChargeSeconds
  outputCount := input.outputCount
  outputLabel := input.outputLabel
  operation := input.operation
  packageContract := input.packageContract
  quotePolicyRevision := input.quotePolicyRevision
  submissionContractHash := input.submissionContractHash
  submissionPromptHash := input.submissionPromptHash
  submissionReferenceAssetsHash := input.submissionReferenceAssetsHash
  submissionInputAssetsHash := input.submissionInputAssetsHash
  roundingStepSeconds := input.roundingStepSeconds
  targetSeconds := input.targetSeconds
  unitRate := input.unitRate

/-- **The host of the quotes**: besides dates, the digest a revision is made by (the first sixteen
digits of SHA-256 over the facts), that of a usage id, and the text of a number. -/
structure QuoteHost extends Host where
  revisionDigest : RevisionFacts → String
  usageDigest : String → String
  numberText : ℚ → String

def revisionFor (host : QuoteHost) (input : BuildProductQuoteInput) : String :=
  host.revisionDigest (revisionFacts input)

def usageIdFor (host : QuoteHost) (taskId quoteId : String) : String :=
  "product-usage-" ++ host.usageDigest (taskId ++ ":" ++ quoteId)

/-- A text that is there: the empty text counts as none. -/
def present (text : Option String) : Option String := text.filter (· ≠ "")

structure ConfirmQuoteInput where
  quoteId : String
  taskId : String
  authorizedCeiling : Option ℚ := none
  deriving DecidableEq

structure ReserveQuoteInput where
  quoteId : String
  units : List ProductUsageUnit
  usageId : Option String := none
  deriving DecidableEq

structure DispatchQuoteInput where
  quoteId : String
  deploymentId : String
  attemptId : String
  providerCost : Option ProviderCostFacts := none
  deriving DecidableEq

inductive TrustedUsageEvidence
  | seconds (kind : UsageEvidenceKind) (actualSeconds : ℚ)
  | product_units (units : List ProductUsageUnit)
  deriving DecidableEq

structure SettleQuoteInput where
  quoteId : String
  trustedUsage : Option TrustedUsageEvidence := none
  attemptId : Option String := none
  overproductionUnitCostMicros : Option ℚ := none
  partialDelivery : Option PartialDeliveryBasis := none
  packagePartialDelivery : Option PackagePartialDeliveryBasis := none
  deriving DecidableEq

structure FallbackDispatchInput where
  quoteId : String
  deploymentId : String
  attemptId : String
  providerCost : Option ProviderCostFacts := none
  supplyCostDeltaMicros : Option ℚ := none
  deriving DecidableEq

structure ReplaceReservedQuoteInput where
  previousQuoteId : String
  previousQuoteRevision : String
  successor : BuildProductQuoteInput
  taskId : String
  usageId : String
  deriving DecidableEq

structure FailAndRefundInput where
  quoteId : String
  trustedUsage : Option TrustedUsageEvidence := none
  forceCreditRefund : Option Bool := none
  deriving DecidableEq

/-! ## Units of a quote -/

def assertProductUsageUnitQuantity (quantity : Int) (field : String) : Except Thrown Unit :=
  if ¬ isSafeInteger quantity ∨ quantity < 1 then
    throw (.domain .INVALID_STATE
      (field ++ " must be a positive integer product usage quantity."))
  else pure ()

/-- The units after those of the resources `seen`. -/
def assertDistinctUnits (seen : List ProductUsageResource) :
    List ProductUsageUnit → Except Thrown Unit
  | [] => pure ()
  | unit :: units => do
    assertProductUsageUnitQuantity unit.quantity (unit.resource.name ++ " quantity")
    if unit.resource ∈ seen then
      throw (.domain .INVALID_STATE
        "Product usage reserve requires one quantity per product resource.")
    assertDistinctUnits (unit.resource :: seen) units

def assertProductUsageUnits (units : List ProductUsageUnit) : Except Thrown Unit := do
  if units = [] then
    throw (.domain .INVALID_STATE
      "Product usage reserve requires at least one product resource.")
  assertDistinctUnits [] units

/-- The quantity of a resource, if it is given: a map made from the units keeps the last of each. -/
def quantityOf (units : List ProductUsageUnit) (resource : ProductUsageResource) : Option Int :=
  (units.reverse.find? (·.resource = resource)).map (·.quantity)

def sameProductUsageUnits (left right : List ProductUsageUnit) : Bool :=
  left.length = right.length ∧ left.all fun unit =>
    quantityOf right unit.resource = some unit.quantity

/-- What was reserved, lowered to what is trusted; a resource not mentioned stays. -/
def reconcileTrustedProductUsageUnits (reservedUnits trustedUnits : List ProductUsageUnit) :
    Except Thrown (List ProductUsageUnit) := do
  if trustedUnits.any fun unit => ¬ reservedUnits.any (·.resource = unit.resource) then
    throw (.domain .INVALID_STATE "Trusted product usage contains an unreserved resource.")
  return reservedUnits.map fun reserved =>
    { reserved with
      quantity := min reserved.quantity
        ((quantityOf trustedUnits reserved.resource).getD reserved.quantity) }

/-! ## Building -/

/-- The allocations after those of the ids `seen`. -/
def assertAllocations (seen : List String) :
    List ProductQuotePackageAllocation → Except Thrown Unit
  | [] => pure ()
  | allocation :: allocations => do
    if Text.isBlank allocation.allocationId ∨ allocation.allocationId ∈ seen ∨
        ¬ isSafeInteger allocation.deliveryUnits ∨ allocation.deliveryUnits < 1 ∨
        ¬ isSafeInteger allocation.creditCost ∨ allocation.creditCost < 0 ∨
        Text.isBlank allocation.operation ∨ Text.isBlank allocation.catalogModel.id ∨
        Text.isBlank allocation.catalogModel.revision ∨ Text.isBlank allocation.routeSnapshotRef ∨
        allocation.rightsRevisionRefs = [] ∨ allocation.rightsRevisionRefs.any Text.isBlank then
      throw (.domain .INVALID_STATE "Package quote contains an invalid carrier allocation.")
    assertAllocations (allocation.allocationId :: seen) allocations

def assertPackageQuoteTotals (input : BuildProductQuoteInput) : Except Thrown Unit :=
  match input.packageContract with
  | none => pure ()
  | some contract => do
    if Text.isBlank contract.contractHash ∨ contract.allocations = [] then
      throw (.domain .INVALID_STATE
        "Package quote requires a server contract hash and at least one allocation.")
    assertAllocations [] contract.allocations
    let totalDeliveryUnits := (contract.allocations.map (·.deliveryUnits)).sum
    let totalCreditCost := (contract.allocations.map (·.creditCost)).sum
    if ¬ isSafeInteger totalDeliveryUnits ∨ ¬ isSafeInteger totalCreditCost ∨
        input.outputCount ≠ some totalDeliveryUnits ∨ input.creditCost ≠ some totalCreditCost then
      throw (.domain .INVALID_STATE
        "Package quote outputCount and creditCost must equal the allocation totals.")

/-- The checks of `buildQuote` that look at the input alone. -/
def checkQuoteInput (input : BuildProductQuoteInput) : Except Thrown Unit := do
  if Text.isBlank input.quoteId ∨ Text.isBlank input.catalogModelId then
    throw (.domain .INVALID_STATE "quoteId and catalogModelId are required.")
  if Text.isBlank input.quotePolicyRevision then
    throw (.domain .INVALID_STATE "quotePolicyRevision is required.")
  if input.unitRate < 0 then
    throw (.domain .INVALID_STATE "unitRate must be a finite non-negative number.")
  if input.outputCount.any fun count => ¬ isSafeInteger count ∨ count < 1 then
    throw (.domain .INVALID_STATE "outputCount must be a positive integer.")
  if input.outputLabel.any Text.isBlank then
    throw (.domain .INVALID_STATE "outputLabel must be a non-empty string.")
  input.debitUnits.forM assertProductUsageUnits
  if input.creditCost.any fun credits => ¬ isSafeInteger credits ∨ credits < 1 then
    throw (.domain .INVALID_STATE "creditCost must be a positive integer.")
  assertPackageQuoteTotals input
  if input.billingMode = .per_output_second ∧ ¬ input.targetSeconds.any (0 < ·) then
    throw (.domain .INVALID_STATE "per_output_second quotes require positive targetSeconds.")

/-- The server's threshold of a policy; `Number.EPSILON` for an unknown one. -/
def extraConfirmThresholdFor (quotePolicyRevision : String) : ℚ :=
  if quotePolicyRevision = "quote.policy@1" then 20 else 1 / 4503599627370496

def quotedSeconds (input : BuildProductQuoteInput) : Option ℚ :=
  match input.billingMode with
  | .per_output_second => some (applyBillableSecondsRules (input.targetSeconds.getD 0)
      input.minChargeSeconds input.roundingStepSeconds)
  | .per_request => none

def quotedAmount (input : BuildProductQuoteInput) : ℚ :=
  computeProductAmount input.billingMode input.unitRate (quotedSeconds input)

def formulaExpression (host : QuoteHost) (input : BuildProductQuoteInput) : String :=
  input.formulaExpression.getD (match input.billingMode with
    | .per_request => "per_request × " ++ host.numberText input.unitRate
    | .per_output_second =>
      "per_output_second × " ++ host.numberText input.unitRate ++ " × billableSeconds")

/-- The snapshot of a new quote. -/
def newQuote (host : QuoteHost) (now : TimeValue) (input : BuildProductQuoteInput) :
    ProductQuoteSnapshot where
  quoteId := input.quoteId
  revision := revisionFor host input
  taskId := present input.taskId
  workspaceId := present input.workspaceId
  catalogModelId := input.catalogModelId
  operation := present input.operation
  catalogModelRevision := present input.catalogModelRevision
  quotePolicyRevision := input.quotePolicyRevision
  submissionContractHash := present input.submissionContractHash
  submissionPromptHash := present input.submissionPromptHash
  submissionReferenceAssetsHash := present input.submissionReferenceAssetsHash
  submissionInputAssetsHash := present input.submissionInputAssetsHash
  extraConfirmThreshold := extraConfirmThresholdFor input.quotePolicyRevision
  billingMode := input.billingMode
  creditCost := input.creditCost
  failureRefundsCredits := input.failureRefundsCredits
  debitUnits := input.debitUnits
  outputCount := input.outputCount
  packageContract := input.packageContract
  outputLabel := (present input.outputLabel).map Text.trim
  formula :=
    { unitRate := input.unitRate
      currency := present input.currency
      expression := formulaExpression host input }
  targetSeconds := input.targetSeconds
  quotedSeconds := quotedSeconds input
  minChargeSeconds := input.minChargeSeconds
  roundingStepSeconds := input.roundingStepSeconds
  confirmedAmount := some (quotedAmount input)
  authorizedCeiling := some (input.authorizedCeiling.getD (quotedAmount input))
  routeSnapshotRef := present input.routeSnapshotRef
  frozenCandidateDeploymentIds := input.frozenCandidateDeploymentIds
  billedSeconds := none
  settlementStatus := none
  lifecycleStatus := .quoted
  settledAmount := none
  refundedAmount := none
  platformAbsorbedAmount := none
  createdAt := isoText now
  expiresAt := present input.expiresAt
  confirmedAt := none
  reservedAt := none
  settledAt := none

/-! ## Settling -/

/-- What the quote authorizes. -/
def ceiling (quote : ProductQuoteSnapshot) : ℚ :=
  (quote.authorizedCeiling <|> quote.confirmedAmount).getD 0

/-- What settling a quote of credits comes to: the credits that go back, and those that stay where
the delivery is known. -/
structure CreditSettlement where
  refundCredits : Int
  settledCredits : Option Int
  deriving DecidableEq

/-- What a delivery says of the credits, and how many units it delivered. -/
def creditEvidence (quote : ProductQuoteSnapshot) (creditCost : Int) (input : SettleQuoteInput) :
    Except Thrown (Option Int × CreditSettlement) := do
  if quote.packageContract.isSome ∧ input.partialDelivery.isSome then
    throw (.domain .INVALID_STATE ("Package quote " ++ quote.quoteId ++
      " requires allocation-keyed partial delivery evidence."))
  if quote.packageContract.isNone ∧ input.packagePartialDelivery.isSome then
    throw (.domain .INVALID_STATE ("Single quote " ++ quote.quoteId ++
      " cannot settle package partial delivery evidence."))
  match quote.packageContract, input.packagePartialDelivery, input.partialDelivery with
  | some contract, some delivery, _ =>
    let settlement ← computePackagePartialCreditSettlement contract.allocations delivery
    return (some (settlement.allocations.map (·.2.deliveredUnits)).sum,
      ⟨settlement.refundCredits, some settlement.settledCredits⟩)
  | _, _, some delivery =>
    if delivery.deliveredUnits = 0 then return (some 0, ⟨0, none⟩)
    let settlement ← computePartialCreditSettlement creditCost
      (quote.failureRefundsCredits = some true) delivery
    return (some delivery.deliveredUnits,
      ⟨settlement.refundCredits, some settlement.settledCredits⟩)
  | _, _, none => return (none, ⟨0, none⟩)

def creditSettlement (quote : ProductQuoteSnapshot) (creditCost : Int) (input : SettleQuoteInput) :
    Except Thrown CreditSettlement := do
  let (deliveredUnits, settlement) ← creditEvidence quote creditCost input
  if deliveredUnits = some 0 then
    throw (.domain .INVALID_STATE ("Quote " ++ quote.quoteId ++
      " delivered zero units and must settle through the failure path."))
  return settlement

/-- The amount the settled credits stand for. -/
def creditAmount (ceiling : ℚ) (creditCost : Int) (settledCredits : Option Int) : ℚ :=
  match settledCredits.filter fun _ => creditCost > 0 with
  | some settled => mathRound (Doubles.rounded (Doubles.rounded (ceiling * settled) / creditCost))
  | none => ceiling

/-- What settling or refunding a quote of units comes to. -/
structure UnitSettlement where
  settlementStatus : ProductSettlementStatus
  amount : ℚ
  units : List ProductUsageUnit
  refundedAmount : ℚ := 0
  billedSeconds : Option ℚ := none
  platformAbsorbedAmount : ℚ := 0
  deriving DecidableEq

/-- The seconds a quote is billed for. -/
def billableSeconds (quote : ProductQuoteSnapshot) (actualSeconds : ℚ) : ℚ :=
  applyBillableSecondsRules actualSeconds quote.minChargeSeconds quote.roundingStepSeconds

/-- The units of a number of seconds, of the one video unit that was reserved. -/
def videoUnits (reservedQuantity : Int) (reservedUnits : List ProductUsageUnit)
    (billableSeconds : ℚ) (message : String) : Except Thrown (List ProductUsageUnit) :=
  match reservedUnits with
  | [⟨.video, _⟩] => pure [⟨.video, min reservedQuantity ⌈billableSeconds⌉⟩]
  | _ => throw (.domain .INVALID_STATE message)

/-- Settling by the seconds: what is over the ceiling the platform absorbs. -/
def secondsSettlement (quote : ProductQuoteSnapshot) (reservedQuantity : Int)
    (reservedUnits : List ProductUsageUnit) (actualSeconds : ℚ) :
    Except Thrown UnitSettlement := do
  let seconds := billableSeconds quote actualSeconds
  let units ← videoUnits reservedQuantity reservedUnits seconds
    "Per-second settlement requires one video product usage unit."
  let rawAmount := computeProductAmount .per_output_second quote.formula.unitRate (some seconds)
  if rawAmount ≤ ceiling quote then
    return {
      settlementStatus := .reconciled
      amount := rawAmount
      units
      refundedAmount := Doubles.rounded (ceiling quote - rawAmount)
      billedSeconds := some seconds }
  else
    return {
      settlementStatus := .reconciled
      amount := ceiling quote
      units
      billedSeconds := some seconds
      platformAbsorbedAmount := Doubles.rounded (rawAmount - ceiling quote) }

/-- The amount a trusted delivery is charged at. -/
def trustedAmount (quote : ProductQuoteSnapshot) : ℚ :=
  min (ceiling quote) (quote.confirmedAmount.getD (ceiling quote))

def unitSettlement (quote : ProductQuoteSnapshot) (reservedUsage : ProductUsageRecord)
    (trustedUsage : Option TrustedUsageEvidence) : Except Thrown UnitSettlement := do
  let reservedUnits ← reservedProductUsageUnits reservedUsage
  match trustedUsage with
  | some (.product_units units) =>
    assertProductUsageUnits units
    return {
      settlementStatus := .reconciled
      amount := trustedAmount quote
      units := ← reconcileTrustedProductUsageUnits reservedUnits units }
  | some (.seconds kind actualSeconds) =>
    if ¬ (isTrustedUsageEvidence kind ∧ actualSeconds ≥ 0) then
      return { settlementStatus := .unknown, amount := ceiling quote, units := reservedUnits }
    else match quote.billingMode with
    | .per_request => return {
        settlementStatus := .reconciled
        amount := trustedAmount quote
        units := reservedUnits }
    | .per_output_second =>
      secondsSettlement quote reservedUsage.reservedQuantity reservedUnits actualSeconds
  | none => return { settlementStatus := .estimated, amount := ceiling quote, units := reservedUnits }

/-- What a quote charges that failed with some trusted seconds. -/
def secondsRefund (quote : ProductQuoteSnapshot) (reservedUsage : ProductUsageRecord)
    (actualSeconds : ℚ) : Except Thrown UnitSettlement := do
  let seconds := billableSeconds quote actualSeconds
  let units ← videoUnits reservedUsage.reservedQuantity (← reservedProductUsageUnits reservedUsage)
    seconds "Per-second refund requires one video product usage unit."
  return {
    settlementStatus := .reconciled
    amount := min (ceiling quote)
      (computeProductAmount .per_output_second quote.formula.unitRate (some seconds))
    units
    billedSeconds := some seconds }

/-- What a failed quote of units still charges, and the units that remain. -/
def unitRefund (quote : ProductQuoteSnapshot) (reservedUsage : ProductUsageRecord)
    (trustedUsage : Option TrustedUsageEvidence) : Except Thrown UnitSettlement := do
  match trustedUsage with
  | some (.product_units units) =>
    assertProductUsageUnits units
    let reservedUnits ← reservedProductUsageUnits reservedUsage
    return {
      settlementStatus := .reconciled
      amount := trustedAmount quote
      units := ← reconcileTrustedProductUsageUnits reservedUnits units }
  | some (.seconds kind actualSeconds) =>
    if isTrustedUsageEvidence kind ∧ quote.billingMode = .per_output_second then
      secondsRefund quote reservedUsage actualSeconds
    else return {
      settlementStatus := if isTrustedUsageEvidence kind then .reconciled else .unknown
      amount := 0
      units := [] }
  | none => return { settlementStatus := .reconciled, amount := 0, units := [] }

end MeiyeAgent
