import MeiyeAgent.CreditBilling.Cycles
import MeiyeAgent.Machinery.OrderedMap

/-!
# CreditBilling/SubscriptionStore — the in-memory subscription store

Three maps in insertion order: the subscriptions, the periods paid for each, and the receipts of
the payment events.  Every operation is an `EStateM Thrown MemoryCreditSubscriptionStore`; it
mutates the stored subscription in place, so what it has written when it throws stays written.

A subscription keeps its **scheduled changes** as a list ordered by effective cycle: the plan of a
cycle is the last change effective by then, or the plan the subscription was opened with.
-/

namespace MeiyeAgent

open Effect

/-! ## Subscriptions -/

/-- The paid plans. -/
inductive PaidPlanId
  | starter
  | growth
  | pro
  deriving DecidableEq, Repr

/-- How often a plan is paid. -/
inductive CreditSubscriptionInterval
  | single_month
  | monthly
  | yearly
  deriving DecidableEq, Repr

/-- Where a subscription stands. -/
inductive CreditSubscriptionStatus
  | active
  | past_due
  | cancelled
  deriving DecidableEq, Repr

/-- What became of an event. -/
inductive CreditSettlementStatus
  | applied
  | duplicate
  | ignored_stale
  deriving DecidableEq, Repr

/-- Immutable plan facts recorded with a paid billing period. -/
structure CreditSubscriptionCoverage where
  creditsPerCycle : Int
  interval : CreditSubscriptionInterval
  tier : PaidPlanId
  deriving DecidableEq, Repr

structure CreditSubscriptionScheduledChange where
  tier : PaidPlanId
  interval : CreditSubscriptionInterval
  effectiveCycle : Int
  deriving DecidableEq, Repr

/-- A subscription, with the changes scheduled for it. -/
structure CreditSubscription where
  id : String
  workspaceId : String
  tier : PaidPlanId
  interval : CreditSubscriptionInterval
  pendingTier : Option PaidPlanId
  pendingInterval : Option CreditSubscriptionInterval
  pendingEffectiveCycle : Option Int
  scheduledChanges : List CreditSubscriptionScheduledChange
  grantCycleOffset : Int
  grantLineageId : String
  anchorAt : Int
  paidThroughCycle : Int
  status : CreditSubscriptionStatus
  pastDueAt : Option Int
  cancelledAt : Option Int
  createdAt : Int
  updatedAt : Int
  settlementStatus : Option CreditSettlementStatus := none
  deriving DecidableEq, Repr

/-- What `upsert` is given: the fields a caller may leave out are optional, and a pending field left
out is told from one given as `null`. -/
structure CreditSubscriptionInput where
  id : String
  workspaceId : String
  tier : PaidPlanId
  interval : CreditSubscriptionInterval
  pendingTier : Option (Option PaidPlanId) := none
  pendingInterval : Option (Option CreditSubscriptionInterval) := none
  pendingEffectiveCycle : Option (Option Int) := none
  scheduledChanges : Option (List CreditSubscriptionScheduledChange) := none
  grantCycleOffset : Option Int := none
  grantLineageId : Option String := none
  anchorAt : String
  paidThroughCycle : Int
  status : Option CreditSubscriptionStatus := none
  pastDueAt : Option String := none
  cancelledAt : Option String := none
  createdAt : Option String := none
  updatedAt : Option String := none
  deriving DecidableEq, Repr

structure CreditSubscriptionPaidPeriodInput where
  subscriptionId : String
  periodStartsAt : String
  coverageCycles : Int
  coverage : Option CreditSubscriptionCoverage
  atTime : String
  deriving DecidableEq, Repr

/-! ## Scheduled changes -/

def legacyScheduledChanges (tier : Option PaidPlanId)
    (interval : Option CreditSubscriptionInterval) (effectiveCycle : Option Int) :
    List CreditSubscriptionScheduledChange :=
  match tier, interval, effectiveCycle with
  | some tier, some interval, some effectiveCycle => [⟨tier, interval, effectiveCycle⟩]
  | _, _, _ => []

def changesFor (subscription : CreditSubscription) : List CreditSubscriptionScheduledChange :=
  if 0 < subscription.scheduledChanges.length then subscription.scheduledChanges
  else legacyScheduledChanges subscription.pendingTier subscription.pendingInterval
    subscription.pendingEffectiveCycle

/-- The last of the changes effective by the cycle. -/
def scheduledChangeForCycle (subscription : CreditSubscription) (cycleIndex : Int) :
    Option CreditSubscriptionScheduledChange :=
  ((changesFor subscription).filter fun change => change.effectiveCycle ≤ cycleIndex).getLast?

/-- The plan of a cycle. -/
def creditSubscriptionTierForCycle (subscription : CreditSubscription) (cycleIndex : Int) :
    PaidPlanId :=
  ((scheduledChangeForCycle subscription cycleIndex).map (·.tier)).getD subscription.tier

/-- The interval of a cycle. -/
def creditSubscriptionIntervalForCycle (subscription : CreditSubscription) (cycleIndex : Int) :
    CreditSubscriptionInterval :=
  ((scheduledChangeForCycle subscription cycleIndex).map (·.interval)).getD subscription.interval

def currentCreditSubscriptionCycle (subscription : CreditSubscription) (now : Int) :
    Except Thrown (Option CreditSubscriptionCycle) :=
  currentCycle subscription.anchorAt now subscription.paidThroughCycle

def assertPaidThroughCycle (value : Int) : Except Thrown Unit :=
  if value < 0 then .error (.error "paidThroughCycle must be a non-negative integer.") else .ok ()

def assertCoverageCycles (value : Int) : Except Thrown Unit :=
  if value < 1 then .error (.error "coverageCycles must be a positive integer.") else .ok ()

/-- The last change of each effective cycle, in the order of the cycles. -/
def normalizeScheduledChanges (changes : List CreditSubscriptionScheduledChange) :
    Except Thrown (List CreditSubscriptionScheduledChange) := do
  let byCycle ← changes.foldlM (fun (byCycle : OrderedMap Int CreditSubscriptionScheduledChange)
      change => do
    assertPaidThroughCycle change.effectiveCycle
    pure (byCycle.set change.effectiveCycle change)) OrderedMap.empty
  pure (sortBy (fun left right => some (left.effectiveCycle - right.effectiveCycle)) byCycle.values)

def scheduleSubscriptionChange (subscription : CreditSubscription)
    (change : CreditSubscriptionScheduledChange) :
    Except Thrown (List CreditSubscriptionScheduledChange) :=
  normalizeScheduledChanges
    ((changesFor subscription).filter (fun c => c.effectiveCycle ≠ change.effectiveCycle) ++
      [change])

/-- The pending change shown on a subscription is the first of its scheduled changes. -/
def CreditSubscription.withChanges (subscription : CreditSubscription)
    (changes : List CreditSubscriptionScheduledChange) : CreditSubscription :=
  { subscription with
    scheduledChanges := changes
    pendingTier := changes.head?.map (·.tier)
    pendingInterval := changes.head?.map (·.interval)
    pendingEffectiveCycle := changes.head?.map (·.effectiveCycle) }

/-! ## The store -/

/-- The facts recorded with a paid period. -/
structure PaidPeriod where
  coverage : Option CreditSubscriptionCoverage
  coverageCycles : Int
  deriving DecidableEq, Repr

/-- What was answered to an event. -/
structure PaymentReceipt where
  payloadHash : String
  result : Option CreditSubscription
  deriving DecidableEq, Repr

/-- The store.  A period is keyed by its subscription and its start, a receipt by its workspace and
its event. -/
structure MemoryCreditSubscriptionStore where
  subscriptions : OrderedMap String CreditSubscription
  paymentEvents : OrderedMap (String × String) PaymentReceipt
  paidPeriods : OrderedMap (String × Int) PaidPeriod
  deriving DecidableEq

/-- The store as constructed. -/
def MemoryCreditSubscriptionStore.empty : MemoryCreditSubscriptionStore :=
  ⟨OrderedMap.empty, OrderedMap.empty, OrderedMap.empty⟩

/-- A call on the subscriptions. -/
abbrev StoreM := EStateM Thrown MemoryCreditSubscriptionStore

namespace MemoryCreditSubscriptionStore

def get (s : MemoryCreditSubscriptionStore) (subscriptionId : String) :
    Option CreditSubscription := s.subscriptions.get? subscriptionId

/-- The stored subscription, mutated. -/
def put (s : MemoryCreditSubscriptionStore) (subscription : CreditSubscription) :
    MemoryCreditSubscriptionStore :=
  { s with subscriptions := s.subscriptions.set subscription.id subscription }

/-- The periods paid for a subscription, oldest record first. -/
def periodsOf (s : MemoryCreditSubscriptionStore) (subscriptionId : String) :
    List (Int × PaidPeriod) :=
  (s.paidPeriods.entries.filter (·.1.1 = subscriptionId)).map fun e => (e.1.2, e.2)

def recordPeriod (s : MemoryCreditSubscriptionStore) (subscriptionId : String) (startsAt : Int)
    (period : PaidPeriod) : MemoryCreditSubscriptionStore :=
  { s with paidPeriods := s.paidPeriods.set (subscriptionId, startsAt) period }

end MemoryCreditSubscriptionStore

variable (host : Host)

def listForWorkspace (workspaceId : String) : StoreM (List CreditSubscription) := do
  let s ← get
  pure (sortBy (fun left right => some (host.localeCompare (isoText right.updatedAt)
      (isoText left.updatedAt)))
    (s.subscriptions.values.filter (·.workspaceId == workspaceId)))

/-- `require`: the stored subscription, or the error naming it. -/
def requireSubscription (subscriptionId : String) : StoreM CreditSubscription := do
  let s ← get
  match s.get subscriptionId with
  | some subscription => pure subscription
  | none => throw (.error ("Credit subscription " ++ subscriptionId ++ " was not found."))

def assertSubscriptionInput (input : CreditSubscriptionInput) : Except Thrown Unit := do
  if Text.isBlank input.id || Text.isBlank input.workspaceId then
    throw (.error "Credit subscription id and workspaceId are required.")
  let _ ← date host input.anchorAt "anchorAt"
  assertPaidThroughCycle input.paidThroughCycle
  if input.pendingTier.isSome || input.pendingInterval.isSome ||
      input.pendingEffectiveCycle.isSome then
    match input.pendingTier.join, input.pendingInterval.join, input.pendingEffectiveCycle.join with
    | some _, some _, some effectiveCycle => assertPaidThroughCycle effectiveCycle
    | _, _, _ =>
      throw (.error "Pending subscription changes require tier, interval and effective cycle.")
  let _ ← (input.scheduledChanges.elim (pure []) normalizeScheduledChanges : Except Thrown _)
  if input.status = some .past_due && (input.pastDueAt.getD "").isEmpty then
    throw (.error "past_due subscriptions require pastDueAt.")
  if input.status ≠ some .past_due && !(input.pastDueAt.getD "").isEmpty then
    throw (.error "Only past_due subscriptions may have pastDueAt.")
  if input.status = some .cancelled && (input.cancelledAt.getD "").isEmpty then
    throw (.error "cancelled subscriptions require cancelledAt.")
  if input.status ≠ some .cancelled && !(input.cancelledAt.getD "").isEmpty then
    throw (.error "Only cancelled subscriptions may have cancelledAt.")

/-- A subscription is stored, over what was there. -/
def upsert (input : CreditSubscriptionInput) : StoreM CreditSubscription := do
  check (assertSubscriptionInput host input)
  let s ← get
  let existing := s.get input.id
  if existing.any (·.workspaceId ≠ input.workspaceId) then
    throw (.domain .IDEMPOTENCY_CONFLICT
      ("Credit subscription " ++ input.id ++ " belongs to a different workspace."))
  let scheduledChanges ← check (normalizeScheduledChanges
    ((input.scheduledChanges.or (existing.map (·.scheduledChanges))).getD
      (legacyScheduledChanges input.pendingTier.join input.pendingInterval.join
        input.pendingEffectiveCycle.join)))
  let instant (value : Option String) : Except Thrown (Option Int) :=
    match value with
    | some text => if text.isEmpty then .ok none else (iso host text).map some
    | none => .ok none
  let anchorAt ← check (iso host input.anchorAt)
  let pastDueAt ← check (instant input.pastDueAt)
  let cancelledAt ← check (instant input.cancelledAt)
  let createdAt ← check (existing.elim (iso host (input.createdAt.getD input.anchorAt))
    fun subscription => .ok subscription.createdAt)
  let updatedAt ← check (iso host (input.updatedAt.getD input.anchorAt))
  let subscription := CreditSubscription.withChanges
    { id := input.id
      workspaceId := input.workspaceId
      tier := input.tier
      interval := input.interval
      pendingTier := none
      pendingInterval := none
      pendingEffectiveCycle := none
      scheduledChanges := []
      grantCycleOffset := input.grantCycleOffset.getD 0
      grantLineageId := (input.grantLineageId.or (existing.map (·.grantLineageId))).getD input.id
      anchorAt, pastDueAt, cancelledAt, createdAt, updatedAt
      paidThroughCycle := input.paidThroughCycle
      status := input.status.getD .active } scheduledChanges
  modify (·.put subscription)
  pure subscription

/-- A stored subscription mutated, and then the fields that take the time of the call: a time that
does not parse throws between the two. -/
def touch (subscription : CreditSubscription) (atTime : String)
    (stamp : Int → CreditSubscription → CreditSubscription) : StoreM CreditSubscription := do
  modify (·.put subscription)
  let ms ← check (iso host atTime)
  modify (·.put (stamp ms subscription))
  pure (stamp ms subscription)

def CreditSubscription.updated (ms : Int) (subscription : CreditSubscription) :
    CreditSubscription := { subscription with updatedAt := ms }

/-! ### Paid periods -/

def assertCoverage (coverage : CreditSubscriptionCoverage) : Except Thrown Unit :=
  if !isSafeInteger coverage.creditsPerCycle || coverage.creditsPerCycle ≤ 0 then
    .error (.error "Paid credit coverage must contain a positive integer credit amount.")
  else .ok ()

def paidPeriodFacts (input : CreditSubscriptionPaidPeriodInput) : Except Thrown PaidPeriod := do
  assertCoverageCycles input.coverageCycles
  input.coverage.elim (.ok ()) assertCoverage
  pure ⟨input.coverage, input.coverageCycles⟩

def assertPaidPeriodFacts (existing : PaidPeriod) (input : CreditSubscriptionPaidPeriodInput) :
    Except Thrown Unit := do
  let incoming ← paidPeriodFacts input
  if existing.coverageCycles ≠ incoming.coverageCycles || existing.coverage ≠ incoming.coverage then
    throw (.domain .IDEMPOTENCY_CONFLICT
      "Credit subscription billing period has different coverage facts.")

/-- The cycles a period covers, from the cycle its start lies in; none when it starts before the
anchor. -/
def periodCycles (anchorAt : Int) (period : Int × PaidPeriod) : Except Thrown (List Nat) := do
  let cycleStart ← creditSubscriptionCycleIndexAt anchorAt period.1
  if cycleStart < 0 then pure []
  else pure (List.range' cycleStart.toNat period.2.coverageCycles.toNat)

/-- The first number from `n` on that is not in the list. -/
def firstMissing (covered : List Nat) : Nat → Nat → Nat
  | 0, n => n
  | fuel + 1, n => if n ∈ covered then firstMissing covered fuel (n + 1) else n

/-- The number of cycles covered without a gap from the first. -/
def contiguousPaidThroughCycle (anchorAt : Int) (periods : List (Int × PaidPeriod)) :
    Except Thrown Int := do
  let covered ← periods.mapM (periodCycles anchorAt)
  pure (firstMissing covered.flatten covered.flatten.length 0)

def recordPaidCoverage (subscriptionId : String) (paidThroughCycle : Int) (atTime : String) :
    StoreM CreditSubscription := do
  let subscription ← requireSubscription subscriptionId
  check (assertPaidThroughCycle paidThroughCycle)
  if subscription.status = .cancelled then
    throw (.error "Cancelled credit subscriptions cannot receive renewal coverage.")
  touch host { subscription with
    paidThroughCycle := max subscription.paidThroughCycle paidThroughCycle
    status := .active
    pastDueAt := none } atTime CreditSubscription.updated

/-- A period is paid. -/
def recordPaidPeriod (input : CreditSubscriptionPaidPeriodInput) : StoreM CreditSubscription := do
  let subscription ← requireSubscription input.subscriptionId
  let periodStartsAt ← check (iso host input.periodStartsAt)
  let atTime ← check (iso host input.atTime)
  check (assertCoverageCycles input.coverageCycles)
  if subscription.status = .cancelled then
    throw (.error "Cancelled credit subscriptions cannot receive renewal coverage.")
  if isoTextAfter periodStartsAt atTime then pure subscription
  else do
    let s ← get
    match s.paidPeriods.get? (input.subscriptionId, periodStartsAt) with
    | some existing => do
      check (assertPaidPeriodFacts existing input)
      pure subscription
    | none => do
      let facts ← check (paidPeriodFacts input)
      modify (·.recordPeriod input.subscriptionId periodStartsAt facts)
      let s ← get
      let paidThroughCycle ← check
        (contiguousPaidThroughCycle subscription.anchorAt (s.periodsOf subscription.id))
      if paidThroughCycle ≤ subscription.paidThroughCycle then pure subscription
      else recordPaidCoverage host input.subscriptionId paidThroughCycle (isoText atTime)

/-- The period recorded; one already recorded must have the same facts. -/
def keepPaidPeriod (periodStartsAt : Int) (input : CreditSubscriptionPaidPeriodInput) :
    StoreM Unit := do
  let s ← get
  match s.paidPeriods.get? (input.subscriptionId, periodStartsAt) with
  | some existing => check (assertPaidPeriodFacts existing input)
  | none => do
    let facts ← check (paidPeriodFacts input)
    modify (·.recordPeriod input.subscriptionId periodStartsAt facts)

/-- The first period is paid. -/
def recordInitialPaidPeriod (input : CreditSubscriptionPaidPeriodInput) :
    StoreM CreditSubscription := do
  let subscription ← requireSubscription input.subscriptionId
  let periodStartsAt ← check (iso host input.periodStartsAt)
  check (assertCoverageCycles input.coverageCycles)
  keepPaidPeriod periodStartsAt input
  let s ← get
  let paidThroughCycle ← check
    (contiguousPaidThroughCycle subscription.anchorAt (s.periodsOf subscription.id))
  let subscription := { subscription with
    paidThroughCycle := max subscription.paidThroughCycle paidThroughCycle }
  modify (·.put subscription)
  pure subscription

def latestPaidPeriodStartsAt (subscriptionId : String) : StoreM (Option Int) := do
  let s ← get
  let compareText (a b : Int) : Option Int :=
    some (if isoText a < isoText b then -1 else if isoText a = isoText b then 0 else 1)
  pure (sortBy compareText ((s.periodsOf subscriptionId).map (·.1))).getLast?

/-! ### Status and plan -/

/-- The source of a replacement: cancelled. -/
def CreditSubscription.replaced (source : CreditSubscription) (ms : Int) : CreditSubscription :=
  { source with status := .cancelled, pastDueAt := none, cancelledAt := some ms, updatedAt := ms }

/-- The replacement: the source under another id, active. -/
def CreditSubscription.replacement (source : CreditSubscription) (targetSubscriptionId : String)
    (ms : Int) : CreditSubscription :=
  { source.replaced ms with
    id := targetSubscriptionId, status := .active, cancelledAt := none, updatedAt := ms }

/-- One subscription takes the place of another. -/
def replaceSubscription (sourceSubscriptionId targetSubscriptionId atTime : String) :
    StoreM CreditSubscription := do
  let source ← requireSubscription sourceSubscriptionId
  let s ← get
  if (s.get targetSubscriptionId).isSome then
    throw (.domain .IDEMPOTENCY_CONFLICT
      ("Credit subscription " ++ targetSubscriptionId ++ " already exists."))
  let ms ← check (iso host atTime)
  modify (·.put (source.replaced ms))
  modify (·.put (source.replacement targetSubscriptionId ms))
  modify fun s => (s.periodsOf sourceSubscriptionId).foldl
    (fun s period => s.recordPeriod targetSubscriptionId period.1 period.2) s
  pure (source.replacement targetSubscriptionId ms)

/-- A late subscription is active again. -/
def resume (subscriptionId atTime : String) : StoreM CreditSubscription := do
  let subscription ← requireSubscription subscriptionId
  if subscription.status = .cancelled then
    throw (.error "Cancelled credit subscriptions cannot resume.")
  touch host { subscription with status := .active, pastDueAt := none } atTime
    CreditSubscription.updated

/-- A subscription with its changes and its past-due mark cleared. -/
def CreditSubscription.cleared (subscription : CreditSubscription) : CreditSubscription :=
  { subscription.withChanges [] with status := .active, pastDueAt := none }

def uncancel (subscriptionId atTime : String) : StoreM CreditSubscription := do
  let subscription ← requireSubscription subscriptionId
  if subscription.status = .cancelled then
    throw (.error "Cancelled credit subscriptions cannot be uncanceled.")
  touch host subscription.cleared atTime CreditSubscription.updated

/-- A subscription is late. -/
def markPastDue (subscriptionId atTime : String) : StoreM CreditSubscription := do
  let subscription ← requireSubscription subscriptionId
  if subscription.status = .active then
    touch host { subscription with status := .past_due } atTime fun ms subscription =>
      { subscription with pastDueAt := some ms, updatedAt := ms }
  else pure subscription

/-- The subscription cancelled, if its status is one that can be. -/
def cancelWhen (cancellable : CreditSubscriptionStatus → Bool) (subscriptionId atTime : String) :
    StoreM CreditSubscription := do
  let subscription ← requireSubscription subscriptionId
  if cancellable subscription.status then
    touch host { subscription with status := .cancelled, pastDueAt := none } atTime
      fun ms subscription => { subscription with cancelledAt := some ms, updatedAt := ms }
  else pure subscription

def cancelPastDue (subscriptionId atTime : String) : StoreM CreditSubscription :=
  cancelWhen host (· = .past_due) subscriptionId atTime

def cancel (subscriptionId atTime : String) : StoreM CreditSubscription :=
  cancelWhen host (· ≠ .cancelled) subscriptionId atTime

def scheduleChange (subscriptionId : String) (change : CreditSubscriptionScheduledChange)
    (atTime : String) : StoreM CreditSubscription := do
  check (assertPaidThroughCycle change.effectiveCycle)
  let subscription ← requireSubscription subscriptionId
  if subscription.status = .cancelled then
    throw (.error "Cancelled credit subscriptions cannot be changed.")
  let changes ← check (scheduleSubscriptionChange subscription change)
  touch host (subscription.withChanges changes) atTime CreditSubscription.updated

/-- The change `cancel_at_period_end` schedules: from the end of the paid cycles on, the plan of the
cycle that is current. -/
def periodEndCancellation (subscription : CreditSubscription) (currentCycleIndex : Int) :
    CreditSubscriptionScheduledChange where
  tier := creditSubscriptionTierForCycle subscription currentCycleIndex
  interval := creditSubscriptionIntervalForCycle subscription currentCycleIndex
  effectiveCycle := subscription.paidThroughCycle

/-! ## Runs -/

/-- A call of one of the store's writing operations, with its arguments. -/
inductive StoreCall
  | upsert (input : CreditSubscriptionInput)
  | recordPaidCoverage (subscriptionId : String) (paidThroughCycle : Int) (atTime : String)
  | recordPaidPeriod (input : CreditSubscriptionPaidPeriodInput)
  | recordInitialPaidPeriod (input : CreditSubscriptionPaidPeriodInput)
  | replaceSubscription (sourceSubscriptionId targetSubscriptionId atTime : String)
  | resume (subscriptionId atTime : String)
  | uncancel (subscriptionId atTime : String)
  | markPastDue (subscriptionId atTime : String)
  | cancelPastDue (subscriptionId atTime : String)
  | cancel (subscriptionId atTime : String)
  | scheduleChange (subscriptionId : String) (change : CreditSubscriptionScheduledChange)
      (atTime : String)
  deriving DecidableEq, Repr

def StoreCall.perform : StoreCall → StoreM CreditSubscription
  | .upsert input => MeiyeAgent.upsert host input
  | .recordPaidCoverage id paidThroughCycle atTime =>
    MeiyeAgent.recordPaidCoverage host id paidThroughCycle atTime
  | .recordPaidPeriod input => MeiyeAgent.recordPaidPeriod host input
  | .recordInitialPaidPeriod input => MeiyeAgent.recordInitialPaidPeriod host input
  | .replaceSubscription source target atTime =>
    MeiyeAgent.replaceSubscription host source target atTime
  | .resume id atTime => MeiyeAgent.resume host id atTime
  | .uncancel id atTime => MeiyeAgent.uncancel host id atTime
  | .markPastDue id atTime => MeiyeAgent.markPastDue host id atTime
  | .cancelPastDue id atTime => MeiyeAgent.cancelPastDue host id atTime
  | .cancel id atTime => MeiyeAgent.cancel host id atTime
  | .scheduleChange id change atTime => MeiyeAgent.scheduleChange host id change atTime

/-- What a call leaves, whether it returns or throws. -/
def StoreCall.step (s : MemoryCreditSubscriptionStore) (call : StoreCall) :
    MemoryCreditSubscriptionStore := final (call.perform host) s

/-- The store after the calls, from a store as constructed. -/
def runStore (calls : List StoreCall) : MemoryCreditSubscriptionStore :=
  runAll (StoreCall.step host) calls .empty

end MeiyeAgent
