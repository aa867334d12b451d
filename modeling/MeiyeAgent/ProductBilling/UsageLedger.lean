import MeiyeAgent.Machinery.OrderedMap
import MeiyeAgent.ProductBilling.UsageUnits

/-!
# ProductBilling/UsageLedger — one reservation a task, settled and refunded

A record reserves units and credits.  It is settled once, and may then be refunded further: a refund
says what remains.  Settling and refunding compute the next record from the old one and the input
alone (`settleRecord`, `refundRecord`); `none` is a replay, which writes nothing.

What the records keep is `ProductBilling/UsageSound`.
-/

namespace MeiyeAgent

open Effect

inductive ProductBillingMode
  | per_request
  | per_output_second
  deriving DecidableEq, Repr

inductive ProductSettlementStatus
  | estimated
  | reconciled
  | unknown
  deriving DecidableEq, Repr

inductive ProductUsageStatus
  | reserved
  | committed
  | refunded
  | partially_refunded
  deriving DecidableEq, Repr

/-- What a task has reserved, and what became of it. -/
structure ProductUsageRecord where
  id : String
  taskId : String
  workspaceId : String
  quoteId : String
  status : ProductUsageStatus
  reservedQuantity : Int
  reservedCredits : Option Int
  reservedUnits : Option (List ProductUsageUnit)
  settledQuantity : Int
  settledCredits : Option Int
  settledUnits : Option (List ProductUsageUnit)
  refundedQuantity : Int
  refundedCredits : Option Int
  refundedUnits : Option (List ProductUsageUnit)
  billingMode : ProductBillingMode
  settlementStatus : ProductSettlementStatus
  resource : Option ProductUsageResource
  createdAt : String
  updatedAt : String
  deriving DecidableEq, Repr

structure ReserveProductUsageInput where
  id : String
  taskId : String
  workspaceId : String
  quoteId : String
  units : Option (List ProductUsageUnit) := none
  credits : Option Int := none
  quantity : Option Int := none
  billingMode : ProductBillingMode
  resource : Option ProductUsageResource := none
  createdAt : String
  deriving DecidableEq, Repr

structure SettleProductUsageInput where
  taskId : String
  settledUnits : Option (List ProductUsageUnit) := none
  settledQuantity : Option Int := none
  refundCredits : Option Int := none
  settlementStatus : ProductSettlementStatus
  updatedAt : String
  deriving DecidableEq, Repr

structure RefundProductUsageInput where
  taskId : String
  remainingUnits : Option (List ProductUsageUnit) := none
  remainingQuantity : Option Int := none
  updatedAt : String
  deriving DecidableEq, Repr

structure ReplaceProductUsageReservationInput extends ReserveProductUsageInput where
  expectedQuoteId : String
  deriving DecidableEq, Repr

/-! ## Units of a record

A record of the time before units has its resource and a quantity instead. -/

/-- The units reserved, of old records too. -/
def reservedProductUsageUnits (record : ProductUsageRecord) :
    Except Thrown (List ProductUsageUnit) :=
  match record.reservedUnits with
  | some units => normalizeUnits units "reservedUnits"
  | none => pure (legacyUnits record.resource record.reservedQuantity)

/-- The units settled, of old records too. -/
def settledProductUsageUnits (record : ProductUsageRecord) :
    Except Thrown (List ProductUsageUnit) :=
  match record.settledUnits with
  | some units => normalizeUnits units "settledUnits"
  | none => pure (legacyUnits record.resource record.settledQuantity)

/-! ## Settling -/

/-- How many of the reserved credits go back. -/
def resolvePartialRefundCredits (existing : ProductUsageRecord) (input : SettleProductUsageInput) :
    Except Thrown Int :=
  match input.refundCredits with
  | none => pure 0
  | some refundCredits => do
    if ¬ isSafeInteger refundCredits ∨ refundCredits < 0 then
      throw (.domain .INVALID_STATE "Partial settle refundCredits must be a non-negative integer.")
    match existing.reservedCredits with
    | none =>
      if refundCredits = 0 then pure 0
      else throw (.domain .INVALID_STATE ("Product usage for task " ++ existing.taskId ++
        " reserved no credits; a credit refund cannot settle against it."))
    | some reservedCredits =>
      if refundCredits > reservedCredits then
        throw (.domain .INVALID_STATE
          "Partial settle refundCredits cannot exceed the reserved credits.")
      else pure refundCredits

/-- The status a settlement leads to: that of the credits, where some go back, else that of the
units. -/
def settledStatus (reservedCredits : Option Int) (partialRefundCredits refundedQuantity
    settledQuantity : Int) : ProductUsageStatus :=
  match reservedCredits.filter fun _ => partialRefundCredits ≠ 0 with
  | some credits => if partialRefundCredits = credits then .refunded else .partially_refunded
  | none =>
    if refundedQuantity = 0 then .committed
    else if settledQuantity = 0 then .refunded
    else .partially_refunded

/-- The first settlement of a record. -/
def settleReserved (existing : ProductUsageRecord) (input : SettleProductUsageInput)
    (settledUnits : List ProductUsageUnit) (partialRefundCredits : Int) :
    Except Thrown ProductUsageRecord := do
  let settledQuantity := totalUnits settledUnits
  let reservedUnits ← reservedProductUsageUnits existing
  assertUnitsWithin settledUnits reservedUnits
    "Settled product quantity cannot exceed reserved product units."
  if settledQuantity > existing.reservedQuantity then
    throw (.domain .INVALID_STATE
      "Settled product quantity cannot exceed reserved authorized ceiling.")
  let refundedUnits := subtractUnits reservedUnits settledUnits
  let refundedQuantity := totalUnits refundedUnits
  return { existing with
    status := settledStatus existing.reservedCredits partialRefundCredits refundedQuantity
      settledQuantity
    settledQuantity
    settledCredits := match existing.reservedCredits with
      | some credits => some (credits - partialRefundCredits)
      | none => existing.settledCredits
    settledUnits := some settledUnits
    refundedQuantity
    refundedCredits := match existing.reservedCredits with
      | some _ => some partialRefundCredits
      | none => existing.refundedCredits
    refundedUnits := some refundedUnits
    settlementStatus := input.settlementStatus
    updatedAt := input.updatedAt }

/-- The record after a settlement, or nothing for a replay. -/
def settleRecord (existing : ProductUsageRecord) (input : SettleProductUsageInput) :
    Except Thrown (Option ProductUsageRecord) := do
  let settledUnits ← normalizeUnits (input.settledUnits.getD
    (legacyUnits existing.resource (input.settledQuantity.getD 0))) "settledUnits"
  let partialRefundCredits ← resolvePartialRefundCredits existing input
  if existing.status ≠ .reserved then
    let settledBefore ← settledProductUsageUnits existing
    if settledBefore = settledUnits ∧ existing.settlementStatus = input.settlementStatus ∧
        existing.refundedCredits.getD 0 = partialRefundCredits then
      pure none
    else
      throw (.domain .IDEMPOTENCY_CONFLICT
        ("Product usage for task " ++ input.taskId ++ " is already settled."))
  else some <$> settleReserved existing input settledUnits partialRefundCredits

/-! ## Refunding -/

/-- The credits that stay with what remains of the units. -/
def remainingCredits (credits remaining quantity : Int) : Int :=
  if quantity = 0 then if remaining = 0 then 0 else credits
  else numberShare credits remaining quantity

/-- Is the record at the target already? -/
def refundReached (existing : ProductUsageRecord) (settledUnits remainingUnits :
    List ProductUsageUnit) : Bool :=
  settledUnits = remainingUnits ∧ (existing.status = .refunded ∨
    existing.status = .partially_refunded ∨
      existing.status = .committed ∧ totalUnits remainingUnits = existing.reservedQuantity)

/-- A settled record is only refunded further. -/
def assertLowers (existing : ProductUsageRecord) (settledUnits remainingUnits :
    List ProductUsageUnit) : Except Thrown Unit := do
  assertUnitsWithin remainingUnits settledUnits "Cannot increase settled product units via refund."
  if totalUnits remainingUnits > existing.settledQuantity then
    throw (.domain .INVALID_STATE "Cannot increase settled product quantity via refund.")

/-- The record with `remainingUnits` left of what was reserved. -/
def refundTo (existing : ProductUsageRecord) (input : RefundProductUsageInput)
    (reservedUnits remainingUnits : List ProductUsageUnit) : ProductUsageRecord :=
  let remaining := totalUnits remainingUnits
  let refundedUnits := subtractUnits reservedUnits remainingUnits
  { existing with
    status :=
      if remaining = 0 then .refunded
      else if remaining = existing.reservedQuantity then .committed
      else .partially_refunded
    settledQuantity := remaining
    settledUnits := some remainingUnits
    refundedQuantity := totalUnits refundedUnits
    refundedUnits := some refundedUnits
    settledCredits := match existing.reservedCredits with
      | some credits => some (remainingCredits credits remaining existing.reservedQuantity)
      | none => existing.settledCredits
    refundedCredits := match existing.reservedCredits with
      | some credits => some (credits - remainingCredits credits remaining existing.reservedQuantity)
      | none => existing.refundedCredits
    settlementStatus := if remaining = 0 then .reconciled else existing.settlementStatus
    updatedAt := input.updatedAt }

/-- What a refund is to leave. -/
def remainingGiven (existing : ProductUsageRecord) (input : RefundProductUsageInput) :
    List ProductUsageUnit :=
  input.remainingUnits.getD (legacyUnits existing.resource (input.remainingQuantity.getD 0))

/-- The record after a refund, or nothing for a replay. -/
def refundRecord (existing : ProductUsageRecord) (input : RefundProductUsageInput) :
    Except Thrown (Option ProductUsageRecord) := do
  let remainingUnits ← normalizeUnits (remainingGiven existing input) "remainingUnits"
  let reservedUnits ← reservedProductUsageUnits existing
  assertUnitsWithin remainingUnits reservedUnits
    "Refund remaining quantity cannot exceed reserved product units."
  if totalUnits remainingUnits > existing.reservedQuantity then
    throw (.domain .INVALID_STATE "Refund remaining quantity cannot exceed reserved quantity.")
  let settledUnits ← settledProductUsageUnits existing
  if refundReached existing settledUnits remainingUnits then
    pure none
  else
    if existing.status ≠ .reserved then
      assertLowers existing settledUnits remainingUnits
    return some (refundTo existing input reservedUnits remainingUnits)

/-! ## The ledger -/

/-- One record a task. -/
structure MemoryProductUsageLedger where
  byTask : OrderedMap String ProductUsageRecord
  deriving DecidableEq

namespace MemoryProductUsageLedger

def empty : MemoryProductUsageLedger := ⟨.empty⟩

def put (taskId : String) (record : ProductUsageRecord) :
    EStateM Thrown MemoryProductUsageLedger Unit :=
  modify fun ledger => ⟨ledger.byTask.set taskId record⟩

def assertCredits (credits : Option Int) : Except Thrown Unit :=
  match credits with
  | some credits =>
    if ¬ isSafeInteger credits ∨ credits < 1 then
      throw (.domain .INVALID_STATE "Product usage credits must be a positive integer.")
    else pure ()
  | none => pure ()

/-- A reservation of the same facts. -/
def sameReservation (existing : ProductUsageRecord) (input : ReserveProductUsageInput)
    (reservedUnits : List ProductUsageUnit) : Except Thrown Bool := do
  if existing.quoteId ≠ input.quoteId then return false
  let units ← reservedProductUsageUnits existing
  return units = reservedUnits ∧ existing.workspaceId = input.workspaceId ∧
    existing.reservedCredits = input.credits

/-- A new reservation. -/
def reservation (input : ReserveProductUsageInput) (reservedUnits : List ProductUsageUnit)
    (resource : Option ProductUsageResource) (createdAt : String) : ProductUsageRecord where
  id := input.id
  taskId := input.taskId
  workspaceId := input.workspaceId
  quoteId := input.quoteId
  status := .reserved
  reservedQuantity := totalUnits reservedUnits
  reservedCredits := input.credits
  reservedUnits := some reservedUnits
  settledQuantity := 0
  settledCredits := none
  settledUnits := some []
  refundedQuantity := 0
  refundedCredits := none
  refundedUnits := some []
  billingMode := input.billingMode
  settlementStatus := .estimated
  resource := resource
  createdAt := createdAt
  updatedAt := input.createdAt

/-- The resource of a reservation of one resource. -/
def onlyResource : List ProductUsageUnit → Option ProductUsageResource
  | [unit] => some unit.resource
  | _ => none

def reserve (input : ReserveProductUsageInput) :
    EStateM Thrown MemoryProductUsageLedger ProductUsageRecord := do
  let reservedUnits ← check (normalizeUnits (input.units.getD
    (legacyUnits input.resource (input.quantity.getD 0))) "units")
  check (assertCredits input.credits)
  if Text.isBlank input.taskId ∨ Text.isBlank input.quoteId ∨ Text.isBlank input.workspaceId then
    throw (.domain .INVALID_STATE "Product usage reserve requires taskId, quoteId, and workspaceId.")
  match (← get).byTask.get? input.taskId with
  | some existing =>
    if ← check (sameReservation existing input reservedUnits) then return existing
    else throw (.domain .IDEMPOTENCY_CONFLICT ("Product usage for task " ++ input.taskId ++
      " is already reserved with different facts."))
  | none =>
    let record := reservation input reservedUnits (onlyResource reservedUnits) input.createdAt
    put input.taskId record
    return record

/-- A reservation moved to a new quote, as long as it stands at the old one. -/
def replaceReservation (input : ReplaceProductUsageReservationInput) :
    EStateM Thrown MemoryProductUsageLedger ProductUsageRecord := do
  match ((← get).byTask.get? input.taskId).filter fun existing => existing.status = .reserved ∧
      existing.quoteId = input.expectedQuoteId ∧ existing.id = input.id with
  | none => throw (.domain .IDEMPOTENCY_CONFLICT ("Product usage for task " ++ input.taskId ++
      " is not the expected reserved quote."))
  | some existing =>
    let units ← check (normalizeUnits (input.units.getD []) "units")
    check (assertCredits input.credits)
    let next := reservation input.toReserveProductUsageInput units none existing.createdAt
    put input.taskId next
    return next

/-- The stored record of a task, changed by `change` unless that is a replay. -/
def changeRecord (taskId : String)
    (change : ProductUsageRecord → Except Thrown (Option ProductUsageRecord)) :
    EStateM Thrown MemoryProductUsageLedger ProductUsageRecord := do
  match (← get).byTask.get? taskId with
  | none => throw (.domain .NOT_FOUND ("No product usage reservation for task " ++ taskId ++ "."))
  | some existing =>
    match ← check (change existing) with
    | none => return existing
    | some next =>
      put taskId next
      return next

def settle (input : SettleProductUsageInput) :
    EStateM Thrown MemoryProductUsageLedger ProductUsageRecord :=
  changeRecord input.taskId (settleRecord · input)

def refund (input : RefundProductUsageInput) :
    EStateM Thrown MemoryProductUsageLedger ProductUsageRecord :=
  changeRecord input.taskId (refundRecord · input)

def getByTask (ledger : MemoryProductUsageLedger) (taskId : String) : Option ProductUsageRecord :=
  ledger.byTask.get? taskId

/-! ## Runs -/

inductive Call
  | reserve (input : ReserveProductUsageInput)
  | replaceReservation (input : ReplaceProductUsageReservationInput)
  | settle (input : SettleProductUsageInput)
  | refund (input : RefundProductUsageInput)

def perform : Call → EStateM Thrown MemoryProductUsageLedger ProductUsageRecord
  | .reserve input => reserve input
  | .replaceReservation input => replaceReservation input
  | .settle input => settle input
  | .refund input => refund input

/-- The ledger a call leaves. -/
def step (ledger : MemoryProductUsageLedger) (call : Call) : MemoryProductUsageLedger :=
  final (perform call) ledger

end MemoryProductUsageLedger

end MeiyeAgent
