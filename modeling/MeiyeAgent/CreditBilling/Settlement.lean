import MeiyeAgent.CreditBilling.Ledger
import MeiyeAgent.CreditBilling.SubscriptionStore
import MeiyeAgent.Foundation.PaymentMapping

/-!
# CreditBilling/Settlement — settling a payment event

`settlePayment` runs over two stores at once, the credit ledger and the subscription store
(`World`).  Everything a branch decides on it reads before its first write; then it writes to the
two stores one call after another, and a throw leaves what was written.

* The receipt of an event is recorded only when its settlement returns, so a settlement that throws
  or is deferred runs again on a retry.
* A `DeferredCreditPaymentEvent` is caught around the whole settlement and answered with no
  subscription.
-/

namespace MeiyeAgent

open Effect

/-! ## Requests -/

/-- What an event says of a subscription. -/
inductive CreditPaymentLifecycle
  | activate
  | renew
  | resume
  | uncancel_at_period_end
  | past_due
  | cancel_at_period_end
  | expire
  deriving DecidableEq, Repr

/-- The lifecycle as its text. -/
def CreditPaymentLifecycle.text : CreditPaymentLifecycle → String
  | .activate => "activate"
  | .renew => "renew"
  | .resume => "resume"
  | .uncancel_at_period_end => "uncancel_at_period_end"
  | .past_due => "past_due"
  | .cancel_at_period_end => "cancel_at_period_end"
  | .expire => "expire"

inductive FrozenBillingPeriod
  | monthly
  | yearly
  deriving DecidableEq, Repr

/-- The facts a checkout froze; its provider and its currency have one value each. -/
structure FrozenPlanSettlementAuthority where
  amountMicros : Int
  billingPeriod : FrozenBillingPeriod
  credits : Int
  paymentMappingRevision : Int
  paymentProductId : String
  period : CreditSubscriptionInterval
  planRevision : String
  tier : PaidPlanId
  deriving DecidableEq, Repr

/-- A payment event. -/
structure CreditPaymentSettlementInput where
  lifecycle : CreditPaymentLifecycle
  paymentEventId : String
  paymentProductId : String
  /-- `paymentProvider` is `waffo`. -/
  waffo : Bool
  interval : Option PaymentMappingInterval
  periodStartsAt : Option String
  subscriptionId : Option String
  providerOccurredAt : Option String
  settlementAuthority : Option FrozenPlanSettlementAuthority
  deriving DecidableEq, Repr

structure CreditPlanOffer where
  id : ProductPlanTier
  credits : Int
  deriving DecidableEq, Repr

structure CreditPlanCatalog where
  plans : List CreditPlanOffer
  deriving DecidableEq, Repr

/-- One call of `settlePayment`: its context and input, and what the sources the service reads hold
at the time of the call. -/
structure SettlementRequest where
  workspaceId : String
  userId : String
  correlationId : String
  input : CreditPaymentSettlementInput
  plans : CreditPlanCatalog
  paymentMapping : Option PaymentMappingConfig
  clock : TimeValue
  deriving DecidableEq

/-- The time of the call, as the service passes it on. -/
def SettlementRequest.now (request : SettlementRequest) : String := isoText request.clock

/-- What `settlementHash` digests; no lifecycle stands for `paid_period`. -/
structure SettlementFacts where
  workspaceId : String
  lifecycle : Option CreditPaymentLifecycle
  paymentProductId : String
  interval : Option PaymentMappingInterval
  periodStartsAt : Option String
  subscriptionId : Option String
  settlementAuthority : Option FrozenPlanSettlementAuthority
  deriving DecidableEq, Repr

/-! ## The two stores -/

/-- The ledger and the subscriptions. -/
structure World where
  ledger : MemoryCreditLedger
  subscriptions : MemoryCreditSubscriptionStore
  deriving DecidableEq

/-- A settlement, on both. -/
abbrev SettleM := EStateM Thrown World

/-- A call on the ledger alone. -/
def onLedger {α : Type} (x : LedgerM α) : SettleM α :=
  zoom World.ledger (fun w ledger => { w with ledger }) x

/-- A call on the subscriptions alone. -/
def onSubscriptions {α : Type} (x : StoreM α) : SettleM α :=
  zoom World.subscriptions (fun w subscriptions => { w with subscriptions }) x

/-! ## Reading an event -/

def assertText (value field : String) : Except Thrown Unit :=
  if Text.isBlank value then .error (.domain .INVALID_STATE (field ++ " is required.")) else .ok ()

def creditInterval : Option PaymentMappingInterval → CreditSubscriptionInterval
  | some .year | some .yearly => .yearly
  | some .one_time | some .single_month => .single_month
  | _ => .monthly

/-- The cycles a payment covers. -/
def paidCycleCoverage (interval : CreditSubscriptionInterval) : Int :=
  if interval = .yearly then 12 else 1

/-- The rank of a plan. -/
def planRank : PaidPlanId → Int
  | .starter => 1
  | .growth => 2
  | .pro => 3

/-- The interval a mapping names a billing cycle by. -/
def CreditSubscriptionInterval.mapped : CreditSubscriptionInterval → PaymentMappingInterval
  | .single_month => .single_month
  | .monthly => .monthly
  | .yearly => .yearly

def PaidPlanId.text : PaidPlanId → String
  | .starter => "starter"
  | .growth => "growth"
  | .pro => "pro"

def PaidPlanId.tier : PaidPlanId → ProductPlanTier
  | .starter => .starter
  | .growth => .growth
  | .pro => .pro

/-- The paid plan of a tier; the trial plan is none. -/
def ProductPlanTier.paid : ProductPlanTier → Option PaidPlanId
  | .trial => none
  | .starter => some .starter
  | .growth => some .growth
  | .pro => some .pro

/-- `frozenPlanSettlementAuthoritySchema` accepts the authority. -/
def FrozenPlanSettlementAuthority.valid (authority : FrozenPlanSettlementAuthority) : Bool :=
  [authority.amountMicros, authority.credits, authority.paymentMappingRevision].all
      (fun n => 0 < n && isSafeInteger n) &&
    !Text.isBlank authority.planRevision && !Text.isBlank authority.paymentProductId &&
    authority.billingPeriod == (if authority.period = .yearly then .yearly else .monthly)

def frozenSettlementAuthority (input : CreditPaymentSettlementInput) :
    Except Thrown (Option FrozenPlanSettlementAuthority) :=
  match input.settlementAuthority with
  | none => .ok none
  | some authority =>
    if !authority.valid || !input.waffo ||
        Text.trim authority.paymentProductId ≠ input.paymentProductId ||
        some authority.period.mapped ≠ input.interval then
      .error (.domain .INVALID_STATE "Payment facts do not match the frozen settlement authority.")
    else .ok (some authority)

def paidCoverageForPlan (catalog : CreditPlanCatalog) (tier : PaidPlanId)
    (interval : CreditSubscriptionInterval) : Except Thrown CreditSubscriptionCoverage :=
  let credits := (catalog.plans.find? (·.id = tier.tier)).map (·.credits)
  match credits.filter fun credits => isSafeInteger credits && 0 < credits with
  | some credits => .ok ⟨credits, interval, tier⟩
  | none => .error (.domain .INVALID_STATE
      ("Credit plan " ++ tier.text ++ " must provide a positive integer credit amount."))

def subscriptionForPayment (subscriptions : List CreditSubscription)
    (subscriptionId : Option String) : Option CreditSubscription :=
  let requested := Text.trim (subscriptionId.getD "")
  if requested.isEmpty then none else subscriptions.find? (·.id = requested)

def subscriptionIdFor (input : CreditPaymentSettlementInput) : Except Thrown String :=
  let requested := Text.trim (input.subscriptionId.getD "")
  if requested.isEmpty then .error (.domain .INVALID_STATE "subscriptionId is required.")
  else .ok requested

/-- The facts an event is compared by when it comes again. -/
def paymentSettlementFacts (workspaceId : String) (input : CreditPaymentSettlementInput) :
    SettlementFacts where
  workspaceId := workspaceId
  lifecycle := if input.lifecycle = .activate ∨ input.lifecycle = .renew then none
    else some input.lifecycle
  paymentProductId := input.paymentProductId
  interval := input.interval
  periodStartsAt := input.periodStartsAt
  subscriptionId := input.subscriptionId.map Text.trim
  settlementAuthority := input.settlementAuthority

/-- The facts older receipts of a Waffo paid period were digested from. -/
def legacyWaffoPaymentSettlementFacts (workspaceId : String)
    (input : CreditPaymentSettlementInput) : List SettlementFacts :=
  if !input.waffo || (input.lifecycle ≠ .activate && input.lifecycle ≠ .renew) ||
      Text.isBlank (input.subscriptionId.getD "") then []
  else [CreditPaymentLifecycle.activate, .renew].map fun lifecycle =>
    { paymentSettlementFacts workspaceId input with
      lifecycle := some lifecycle
      settlementAuthority := none }

/-! ## Receipts -/

/-- `/^[a-f0-9]{64}$/`. -/
def isPayloadHash (hash : String) : Bool :=
  hash.length == 64 && hash.toList.all fun c => c.isDigit || ('a' ≤ c && c ≤ 'f')

variable (host : Host)

/-- What `withPaymentEvent` is given besides the operation. -/
structure PaymentEventInput where
  workspaceId : String
  paymentEventId : String
  payloadHash : String
  compatiblePayloadHashes : List String
  createdAt : String

def assertPaymentEventInput (input : PaymentEventInput) : Except Thrown Unit := do
  if Text.isBlank input.workspaceId || Text.isBlank input.paymentEventId then
    throw (.domain .INVALID_STATE "Credit payment workspace and event id are required.")
  if !isPayloadHash input.payloadHash then
    throw (.domain .INVALID_STATE "Credit payment payload hash is invalid.")
  if !input.compatiblePayloadHashes.all isPayloadHash then
    throw (.domain .INVALID_STATE "Credit payment compatible payload hash is invalid.")
  let _ ← date host input.createdAt "createdAt"

/-- An event that comes again says the same. -/
def assertPaymentEventFacts (existing replayed : String) (compatiblePayloadHashes : List String) :
    Except Thrown Unit :=
  if existing ≠ replayed && !compatiblePayloadHashes.contains existing then
    .error (.domain .IDEMPOTENCY_CONFLICT "Credit payment event was replayed with different facts.")
  else .ok ()

def withSettlementStatus (subscription : CreditSubscription) (status : CreditSettlementStatus) :
    CreditSubscription := { subscription with settlementStatus := some status }

def MemoryCreditSubscriptionStore.recordReceipt (s : MemoryCreditSubscriptionStore)
    (workspaceId paymentEventId : String) (receipt : PaymentReceipt) :
    MemoryCreditSubscriptionStore :=
  { s with paymentEvents := s.paymentEvents.set (workspaceId, paymentEventId) receipt }

/-- The settlement of an event not recorded yet, recorded when it returns. -/
def settleOnce (input : PaymentEventInput) (operation : SettleM CreditSubscription) :
    SettleM (Option CreditSubscription) := do
  let result ← operation
  let recorded := withSettlementStatus result
    (if result.settlementStatus = some .ignored_stale then .ignored_stale else .applied)
  onSubscriptions (modify (·.recordReceipt input.workspaceId input.paymentEventId
    ⟨input.payloadHash, some recorded⟩))
  pure (some recorded)

/-- A deferred settlement is answered with no subscription. -/
def answerDeferred : Thrown → Option (Option CreditSubscription)
  | .deferred _ => some none
  | _ => none

/-- An event is settled once, and leaves a receipt. -/
def withPaymentEvent (input : PaymentEventInput) (operation : SettleM CreditSubscription) :
    SettleM (Option CreditSubscription) :=
  recover answerDeferred do
    check (assertPaymentEventInput host input)
    let w ← get
    match w.subscriptions.paymentEvents.get? (input.workspaceId, input.paymentEventId) with
    | some existing => do
      check (assertPaymentEventFacts existing.payloadHash input.payloadHash
        input.compatiblePayloadHashes)
      pure (existing.result.map (withSettlementStatus · .duplicate))
    | none => settleOnce input operation

/-! ## Branches -/

/-- The subscription an event is settled for, with its plan in the current cycle. -/
structure ActivePlan where
  subscription : CreditSubscription
  cycleIndex : Int
  deriving DecidableEq, Repr

def ActivePlan.tier (active : ActivePlan) : PaidPlanId :=
  creditSubscriptionTierForCycle active.subscription active.cycleIndex

def ActivePlan.interval (active : ActivePlan) : CreditSubscriptionInterval :=
  creditSubscriptionIntervalForCycle active.subscription active.cycleIndex

/-- The current cycle of the subscription, or the last one paid when there is none. -/
def activePlan (subscription : CreditSubscription) (now : Int) : Except Thrown ActivePlan := do
  let current ← currentCreditSubscriptionCycle subscription now
  pure ⟨subscription,
    current.elim (max 0 (subscription.paidThroughCycle - 1)) fun cycle => cycle.cycleIndex⟩

def assertExistingSubscription (active : Option ActivePlan) (lifecycle : CreditPaymentLifecycle) :
    Except Thrown ActivePlan :=
  match active with
  | some active => .ok active
  | none => .error (.domain .NOT_FOUND
      ("Credit subscription " ++ lifecycle.text ++ " cannot settle before activation."))

/-- The event's period starts before the latest period paid for the subscription, or with it. -/
def staleTerminalPeriod (subscriptionId : String) (input : CreditPaymentSettlementInput)
    (allowEqualPeriod : Bool) : SettleM Bool := do
  let latest ← onSubscriptions (latestPaidPeriodStartsAt subscriptionId)
  let periodStartsAt := input.periodStartsAt.getD ""
  match latest with
  | none => pure false
  | some latest =>
    if periodStartsAt.isEmpty then pure false
    else
      match host.dateParse periodStartsAt with
      | none => throw (.domain .INVALID_STATE "periodStartsAt must be an ISO timestamp.")
      | some incoming =>
        pure (if allowEqualPeriod then isoTextAfter latest incoming
          else !isoTextAfter incoming latest)

def ignoredStale (subscription : CreditSubscription) : CreditSubscription :=
  withSettlementStatus subscription .ignored_stale

/-- A period that has not begun defers the settlement. -/
def awaitPeriod (periodStartsAt : String) (now : Int) (message : String) : Except Thrown Unit :=
  if Num.gt (host.dateParse periodStartsAt) (some now) then .error (.deferred message) else .ok ()

/-- The plan of the period's cycle must be the one paid for. -/
def assertFrozenPlan (subscription : CreditSubscription) (periodStartsAt : String)
    (tier : PaidPlanId) (interval : CreditSubscriptionInterval) (message : String) :
    Except Thrown Unit := do
  let target ← date host periodStartsAt "periodStartsAt"
  let cycle ← creditSubscriptionCycleIndexAt subscription.anchorAt target
  if tier ≠ creditSubscriptionTierForCycle subscription cycle ||
      interval ≠ creditSubscriptionIntervalForCycle subscription cycle then
    throw (.domain .INVALID_STATE message)

/-- The period the event pays for, as recorded for the subscription. -/
def paidPeriod (request : SettlementRequest) (subscriptionId periodStartsAt : String)
    (coverage : CreditSubscriptionCoverage) : CreditSubscriptionPaidPeriodInput where
  subscriptionId := subscriptionId
  periodStartsAt := periodStartsAt
  coverageCycles := paidCycleCoverage (creditInterval request.input.interval)
  coverage := some coverage
  atTime := request.now

/-- A payment is late. -/
def settlePastDue (request : SettlementRequest) (active : Option ActivePlan) :
    SettleM CreditSubscription := do
  let active ← check (assertExistingSubscription active .past_due)
  check (assertText (request.input.periodStartsAt.getD "") "periodStartsAt")
  let stale ← staleTerminalPeriod host active.subscription.id request.input
    request.input.providerOccurredAt.isSome
  if stale then pure (ignoredStale active.subscription)
  else onSubscriptions (markPastDue host active.subscription.id request.now)

/-- The subscription ends with its period. -/
def settleCancelAtPeriodEnd (request : SettlementRequest) (active : Option ActivePlan) :
    SettleM CreditSubscription := do
  let active ← check (assertExistingSubscription active .cancel_at_period_end)
  let stale ← staleTerminalPeriod host active.subscription.id request.input true
  if stale then pure (ignoredStale active.subscription)
  else onSubscriptions (scheduleChange host active.subscription.id
    (periodEndCancellation active.subscription active.cycleIndex) request.now)

/-- The subscription is over. -/
def settleExpire (request : SettlementRequest) (active : Option ActivePlan) :
    SettleM CreditSubscription := do
  let active ← check (assertExistingSubscription active .expire)
  let stale ← staleTerminalPeriod host active.subscription.id request.input false
  if stale then pure (ignoredStale active.subscription)
  else onSubscriptions (cancel host active.subscription.id request.now)

/-- A payment came late. -/
def settleResume (request : SettlementRequest) (active : Option ActivePlan) (tier : PaidPlanId)
    (coverage : CreditSubscriptionCoverage) : SettleM CreditSubscription := do
  let periodStartsAt := request.input.periodStartsAt.getD ""
  let active ← check (match active with
    | some active => .ok active
    | none => .error (.domain .NOT_FOUND
        "Credit subscription cannot resume before activation."))
  if active.subscription.status ≠ .past_due then
    throw (.domain .INVALID_STATE "Only a past-due credit subscription can resume after payment.")
  check (assertText periodStartsAt "periodStartsAt")
  check (awaitPeriod host periodStartsAt request.clock
    "Credit resume is waiting for its paid billing period to start.")
  let stale ← staleTerminalPeriod host active.subscription.id request.input false
  if stale then pure (ignoredStale active.subscription)
  else do
    check (assertFrozenPlan host active.subscription periodStartsAt tier
      (creditInterval request.input.interval)
      "Credit resume does not match the frozen credit subscription tier and interval.")
    let paid ← onSubscriptions (recordPaidPeriod host
      (paidPeriod request active.subscription.id periodStartsAt coverage))
    if paid.status = .past_due then
      onSubscriptions (resume host active.subscription.id request.now)
    else pure paid

/-- The subscription goes on after its period. -/
def settleUncancel (request : SettlementRequest) (active : Option ActivePlan) :
    SettleM CreditSubscription := do
  let active ← check (assertExistingSubscription active .uncancel_at_period_end)
  onSubscriptions (uncancel host active.subscription.id request.now)

/-- The next period is paid. -/
def settleRenew (request : SettlementRequest) (active : Option ActivePlan) (tier : PaidPlanId)
    (coverage : CreditSubscriptionCoverage) : SettleM CreditSubscription := do
  let periodStartsAt := request.input.periodStartsAt.getD ""
  let active ← check (match active with
    | some active => .ok active
    | none => .error (.domain .NOT_FOUND "Credit subscription cannot renew before activation."))
  if active.interval = .single_month ∧ active.subscription.pendingInterval = none then
    throw (.domain .INVALID_STATE
      "A single-month credit subscription has no renewable coverage.")
  check (assertText periodStartsAt "periodStartsAt")
  check (awaitPeriod host periodStartsAt request.clock
    "Credit renewal is waiting for its billing period to start.")
  check (assertFrozenPlan host active.subscription periodStartsAt tier
    (creditInterval request.input.interval)
    "Credit renewal does not match the frozen credit subscription tier and interval.")
  onSubscriptions (recordPaidPeriod host
    (paidPeriod request active.subscription.id periodStartsAt coverage))

/-! ### Activation -/

/-- The start of the event's period, or the time of the call. -/
def SettlementRequest.anchorAt (request : SettlementRequest) : String :=
  request.input.periodStartsAt.getD request.now

/-- A subscription begins. -/
def openSubscription (request : SettlementRequest) (id : String) (tier : PaidPlanId)
    (coverage : CreditSubscriptionCoverage) (grantCycleOffset : Option Int) :
    StoreM CreditSubscription := do
  let interval := creditInterval request.input.interval
  let subscription ← upsert host
    { id
      workspaceId := request.workspaceId
      tier
      interval
      anchorAt := request.anchorAt
      paidThroughCycle := paidCycleCoverage interval
      grantCycleOffset
      createdAt := some request.now
      updatedAt := some request.now }
  let _ ← recordInitialPaidPeriod host (paidPeriod request subscription.id request.anchorAt coverage)
  pure subscription

/-- A replacement of no higher rank takes the subscription over, with the coverage it has. -/
def settleReplacement (request : SettlementRequest) (active : ActivePlan) (id : String)
    (tier : PaidPlanId) (coverage : CreditSubscriptionCoverage) : StoreM CreditSubscription := do
  let interval := creditInterval request.input.interval
  let deferred := Num.gt (host.dateParse request.anchorAt) (some request.clock.val)
  let replacement ← replaceSubscription host active.subscription.id id request.now
  let waiting : Thrown := .deferred "Credit replacement is waiting for its billing period to start."
  if planRank tier < planRank active.tier ∨ interval ≠ active.interval then do
    let scheduled ← scheduleChange host replacement.id
      ⟨tier, interval, active.subscription.paidThroughCycle⟩ request.now
    if deferred then throw waiting
    else recordPaidPeriod host (paidPeriod request scheduled.id request.anchorAt coverage)
  else do
    let paid ← recordPaidPeriod host (paidPeriod request replacement.id request.anchorAt coverage)
    if deferred then throw waiting else pure paid

/-- An upgrade revokes the credits of the plan it leaves, and opens the subscription anew. -/
def settleUpgrade (request : SettlementRequest) (active : ActivePlan) (id : String)
    (tier : PaidPlanId) (coverage : CreditSubscriptionCoverage) : SettleM CreditSubscription := do
  let _ ← onLedger (expireSubscriptionLots
    { workspaceId := request.workspaceId
      subscriptionId := active.subscription.grantLineageId
      actorId := request.userId
      correlationId := request.correlationId
      createdAt := request.now })
  let _ ← onSubscriptions (cancel host active.subscription.id request.now)
  onSubscriptions (openSubscription host request id tier coverage
    (some (if active.subscription.id ≠ id then 0
      else active.subscription.grantCycleOffset + active.subscription.paidThroughCycle)))

/-- A subscription opened by a replacement is activated by the first period it is paid for. -/
def activatesReplacement (request : SettlementRequest) (requested : Option CreditSubscription) :
    Bool :=
  requested.any (fun subscription => subscription.grantLineageId ≠ subscription.id) &&
    !(request.input.periodStartsAt.getD "").isEmpty

/-- A plan is paid for: anew, or in place of another. -/
def settleActivation (request : SettlementRequest) (requested : Option CreditSubscription)
    (active : Option ActivePlan) (tier : PaidPlanId) (coverage : CreditSubscriptionCoverage) :
    SettleM CreditSubscription := do
  let interval := creditInterval request.input.interval
  let periodStartsAt := request.input.periodStartsAt.getD ""
  match active with
  | none => do
    let id ← check (subscriptionIdFor request.input)
    onSubscriptions (openSubscription host request id tier coverage none)
  | some active =>
    if activatesReplacement request requested then do
      check (awaitPeriod host periodStartsAt request.clock
        "Credit replacement is waiting for its billing period to start.")
      check (assertFrozenPlan host active.subscription periodStartsAt tier interval
        "Credit replacement does not match the frozen credit subscription tier and interval.")
      onSubscriptions (recordPaidPeriod host
        (paidPeriod request active.subscription.id periodStartsAt coverage))
    else do
      let id ← check (subscriptionIdFor request.input)
      if active.subscription.id ≠ id ∧ planRank tier ≤ planRank active.tier then
        onSubscriptions (settleReplacement host request active id tier coverage)
      else if planRank active.tier < planRank tier then
        settleUpgrade host request active id tier coverage
      else
        onSubscriptions (scheduleChange host active.subscription.id
          ⟨tier, interval, active.subscription.paidThroughCycle⟩ request.now)

/-! ## The settlement -/

/-- The subscription of the workspace the event names. -/
def requestedSubscription (request : SettlementRequest)
    (workspaceSubscriptions : List CreditSubscription) : Option CreditSubscription :=
  subscriptionForPayment workspaceSubscriptions request.input.subscriptionId

/-- The subscription an event is settled for: the one it names, or for an activation any that is
not cancelled. -/
def settledSubscription (request : SettlementRequest)
    (workspaceSubscriptions : List CreditSubscription) : Option CreditSubscription :=
  (requestedSubscription request workspaceSubscriptions).or
    (if request.input.lifecycle = .activate then
      workspaceSubscriptions.find? (·.status ≠ .cancelled) else none)

/-- **An event, by its lifecycle.** -/
def settlePaymentEvent (request : SettlementRequest) (tier : PaidPlanId)
    (coverage : CreditSubscriptionCoverage) : SettleM CreditSubscription := do
  let workspaceSubscriptions ← onSubscriptions (listForWorkspace host request.workspaceId)
  let requested := requestedSubscription request workspaceSubscriptions
  let active ← check ((settledSubscription request workspaceSubscriptions).mapM
    (activePlan · request.clock))
  match request.input.lifecycle with
  | .past_due => settlePastDue host request active
  | .cancel_at_period_end => settleCancelAtPeriodEnd host request active
  | .expire => settleExpire host request active
  | .resume => settleResume host request active tier coverage
  | .uncancel_at_period_end => settleUncancel host request active
  | .renew => settleRenew host request active tier coverage
  | .activate => settleActivation host request requested active tier coverage

/-- The tier a payment is settled at. -/
def settledTier (request : SettlementRequest) (authority : Option FrozenPlanSettlementAuthority) :
    Except Thrown PaidPlanId := do
  let tier ← (match authority with
    | some authority => .ok authority.tier.tier
    | none => resolvePaymentTier
        ⟨request.input.paymentProductId, request.input.interval, request.paymentMapping,
          request.input.waffo⟩)
  match tier.paid with
  | some tier => pure tier
  | none => throw (.domain .INVALID_STATE "Payment cannot grant the trial credit plan.")

def settledCoverage (request : SettlementRequest)
    (authority : Option FrozenPlanSettlementAuthority) (tier : PaidPlanId) :
    Except Thrown CreditSubscriptionCoverage :=
  let interval := creditInterval request.input.interval
  match authority with
  | some authority => .ok ⟨authority.credits, interval, tier⟩
  | none => paidCoverageForPlan request.plans tier interval

/-- **Settling a payment event.**  `digest` is the SHA-256 digest of the facts' JSON text. -/
def settlePayment (digest : SettlementFacts → String) (request : SettlementRequest) :
    SettleM (Option CreditSubscription) := do
  check (assertText request.input.paymentEventId "paymentEventId")
  check (assertText request.input.paymentProductId "paymentProductId")
  check (assertText (request.input.subscriptionId.getD "") "subscriptionId")
  let authority ← check (frozenSettlementAuthority request.input)
  let tier ← check (settledTier request authority)
  withPaymentEvent host
    { workspaceId := request.workspaceId
      paymentEventId := request.input.paymentEventId
      payloadHash := digest (paymentSettlementFacts request.workspaceId request.input)
      compatiblePayloadHashes :=
        (legacyWaffoPaymentSettlementFacts request.workspaceId request.input).map digest
      createdAt := request.now }
    do
      let coverage ← check (settledCoverage request authority tier)
      settlePaymentEvent host request tier coverage

end MeiyeAgent
