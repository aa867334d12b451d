import MeiyeAgent.Foundation.Runtime

/-!
# Foundation/PaymentMapping — the plan a payment product grants

A product is looked up in the configured mappings, first with its own interval and then for any
interval; with no mapping the interval decides.  The Waffo provider settles through a **complete**
catalog only: three plans by three billing intervals, each product named once.
-/

namespace MeiyeAgent

inductive ProductPlanTier
  | trial
  | starter
  | growth
  | pro
  deriving DecidableEq, Repr

inductive PaymentMappingInterval
  | single_month
  | monthly
  | yearly
  | month
  | year
  | lifetime
  | one_time
  | any
  deriving DecidableEq, Repr

/-- The tier that a product of the provider stands for. -/
structure PaymentProductMapping where
  paymentProductId : String
  interval : Option PaymentMappingInterval
  tier : ProductPlanTier
  deriving DecidableEq, Repr

structure PaymentMappingConfig where
  mappings : List PaymentProductMapping
  deriving DecidableEq, Repr

structure ResolvePaymentTierInput where
  paymentProductId : String
  interval : Option PaymentMappingInterval
  config : Option PaymentMappingConfig
  /-- The payment provider is Waffo. -/
  waffo : Bool
  deriving DecidableEq, Repr

/-- The plan of an interval with no mapping. -/
def defaultTierForInterval : Option PaymentMappingInterval → ProductPlanTier
  | some .lifetime | some .one_time => .pro
  | _ => .growth

def normalizeInterval (interval : Option PaymentMappingInterval) : PaymentMappingInterval :=
  interval.getD .any

def waffoIntervals : List PaymentMappingInterval := [.single_month, .monthly, .yearly]

def isWaffoInterval (interval : Option PaymentMappingInterval) : Bool :=
  interval.any (· ∈ waffoIntervals)

def invalidWaffoPaymentMapping : Thrown :=
  .domain .INVALID_STATE
    "Waffo payment mapping must exactly match the complete subscription catalog."

/-- Nine Waffo mappings, no plan at one interval twice, no product twice, and every plan at every
interval. -/
def isCompleteWaffoMapping (mappings : List PaymentProductMapping) : Bool :=
  let waffoMappings := mappings.filter (isWaffoInterval ·.interval)
  let planPeriods : List (ProductPlanTier × Option PaymentMappingInterval) :=
    waffoMappings.map fun mapping => (mapping.tier, mapping.interval)
  waffoMappings.length == 9 &&
    waffoMappings.all (!Text.isBlank ·.paymentProductId) &&
    decide planPeriods.Nodup &&
    decide (waffoMappings.map (·.paymentProductId)).Nodup &&
    [ProductPlanTier.starter, .growth, .pro].all fun tier =>
      waffoIntervals.all fun interval => planPeriods.contains (tier, some interval)

/-- Waffo products are mapped by product and interval. -/
def resolveStrictWaffoPaymentTier (input : ResolvePaymentTierInput) (productId : String) :
    Except Thrown ProductPlanTier :=
  let mappings := (input.config.map (·.mappings)).getD []
  if productId.isEmpty || !isWaffoInterval input.interval || !isCompleteWaffoMapping mappings then
    .error invalidWaffoPaymentMapping
  else
    match mappings.find? fun mapping =>
        Text.trim mapping.paymentProductId == productId && mapping.interval == input.interval with
    | some mapping => .ok mapping.tier
    | none => .error invalidWaffoPaymentMapping

/-- The tier a payment is for. -/
def resolvePaymentTier (input : ResolvePaymentTierInput) : Except Thrown ProductPlanTier :=
  let productId := Text.trim input.paymentProductId
  if input.waffo then resolveStrictWaffoPaymentTier input productId
  else if productId.isEmpty then .ok .growth
  else
    let mappings := (input.config.map (·.mappings)).getD []
    let mappedAt (interval : PaymentMappingInterval) := mappings.find? fun row =>
      row.paymentProductId == productId && normalizeInterval row.interval == interval
    match (mappedAt (normalizeInterval input.interval)).or (mappedAt .any) with
    | some row => .ok row.tier
    | none => .ok (defaultTierForInterval (some (normalizeInterval input.interval)))

end MeiyeAgent
