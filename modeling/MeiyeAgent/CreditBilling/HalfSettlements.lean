import MeiyeAgent.CreditBilling.Atomicity
import MeiyeAgent.CreditBilling.OneLive

/-!
# CreditBilling/HalfSettlements — which settlements stop half-way

A settlement that throws or is deferred should leave both stores as they were.  Two kinds do not:

* A replacement of no higher rank **takes the subscription over at once** and is deferred
  afterwards, when its period has not begun (`DefersReplacement`).
* A plan change is written before its first period is recorded, and a period before the paid cycles
  are counted: when that last step is refused, what was written stays (`StopsHalfWay`).

`settlement_atomic` says that in every pair of stores reached there is no third kind.
-/

namespace MeiyeAgent

open Effect

variable (host : Host) {w : World} (request : SettlementRequest) {tier : PaidPlanId}
  {coverage : CreditSubscriptionCoverage}

/-! ## The branch of an event -/

section Branch

/-- **The ways a settlement stops half-way**, by the subscription it is settled for. -/
inductive StopsBranch (w : World) (request : SettlementRequest) (requested : Option CreditSubscription)
    (tier : PaidPlanId) (coverage : CreditSubscriptionCoverage) : Option ActivePlan → Prop
  | renewal {active : ActivePlan} (hlifecycle : request.input.lifecycle = .renew)
      (hchecks : Renews host request active tier)
      (hstops : StopsPaying host w.subscriptions active.subscription request.periodStartsAt
        request.clock (request.periodFacts coverage)) :
      StopsBranch w request requested tier coverage (some active)
  | resumption {active : ActivePlan} (hlifecycle : request.input.lifecycle = .resume)
      (hchecks : Resumes host w request active tier)
      (hstops : StopsPaying host w.subscriptions active.subscription request.periodStartsAt
        request.clock (request.periodFacts coverage)) :
      StopsBranch w request requested tier coverage (some active)
  | firstPeriod {active : ActivePlan} (hlifecycle : request.input.lifecycle = .activate)
      (hchecks : StartsReplacement host request requested active tier)
      (hstops : StopsPaying host w.subscriptions active.subscription request.periodStartsAt
        request.clock (request.periodFacts coverage)) :
      StopsBranch w request requested tier coverage (some active)
  | opening {id : String} {startsAt : Int} (hlifecycle : request.input.lifecycle = .activate)
      (hid : subscriptionIdFor request.input = .ok id)
      (hstart : iso host request.anchorAt = .ok startsAt)
      (hopens : OpensFor w.subscriptions request.workspaceId id)
      (hrefuses : RefusesFirst w.subscriptions id startsAt (request.periodFacts coverage)) :
      StopsBranch w request requested tier coverage none
  | replacement {active : ActivePlan} {id : String}
      (hlifecycle : request.input.lifecycle = .activate)
      (hlater : activatesReplacement request requested = false)
      (hid : subscriptionIdFor request.input = .ok id)
      (hreplaces : active.subscription.id ≠ id ∧ planRank tier ≤ planRank active.tier)
      (habsent : w.subscriptions.get id = none) (hbegun : request.waits host = false)
      (hrefuses : RefusesPeriod host w.subscriptions active.subscription request
        (request.periodFacts coverage)) :
      StopsBranch w request requested tier coverage (some active)
  | upgrade {active : ActivePlan} {id : String} (hlifecycle : request.input.lifecycle = .activate)
      (hlater : activatesReplacement request requested = false)
      (hid : subscriptionIdFor request.input = .ok id)
      (hupgrades : planRank active.tier < planRank tier)
      (hhalf : HalfUpgrades host w request active id coverage) :
      StopsBranch w request requested tier coverage (some active)

/-- A replacement whose period has not begun: it takes the subscription over, and is deferred. -/
structure DefersBranch (w : World) (request : SettlementRequest)
    (requested : Option CreditSubscription) (tier : PaidPlanId) (active : ActivePlan) (id : String) :
    Prop where
  lifecycle : request.input.lifecycle = .activate
  later : activatesReplacement request requested = false
  named : subscriptionIdFor request.input = .ok id
  replaces : active.subscription.id ≠ id ∧ planRank tier ≤ planRank active.tier
  absent : w.subscriptions.get id = none
  waits : request.waits host = true

/-- What the subscription an event is settled for is known to be. -/
structure SettledFor (w : World) (request : SettlementRequest) (active : ActivePlan) : Prop where
  stored : w.subscriptions.get active.subscription.id = some active.subscription
  live : ∀ id, subscriptionIdFor request.input = .ok id → active.subscription.id ≠ id →
    active.subscription.status ≠ .cancelled

theorem subscriptionIdFor_nonblank {input : CreditPaymentSettlementInput} {id : String}
    (h : subscriptionIdFor input = .ok id) : Text.isBlank id = false := by
  obtain rfl := subscriptionIdFor_eq_ok h
  refine Text.isBlank_trim fun hempty => ?_
  rw [subscriptionIdFor, if_pos (by simp [hempty])] at h
  exact absurd h (by simp)

theorem atomic_settleActivation (hstored : EachStored PlanOrdered w.subscriptions)
    (howned : PeriodsOwned w.subscriptions) (hworkspace : Text.isBlank request.workspaceId = false)
    (hcoverage : assertCoverage coverage = .ok ()) (hlifecycle : request.input.lifecycle = .activate)
    {active : ActivePlan} (hactive : SettledFor w request active)
    (requested : Option CreditSubscription) :
    Atomic (settleActivation host request requested (some active) tier coverage) w ↔
      ¬ StopsBranch host w request requested tier coverage (some active) ∧
        ∀ id, ¬ DefersBranch host w request requested tier active id := by
  have hnow : iso host request.now = .ok request.clock.val := iso_isoText host request.clock
  cases hlater : activatesReplacement request requested with
  | true =>
    rw [atomic_settleFirstPeriod host request hstored hactive.stored hcoverage hlater]
    refine ⟨fun h => ⟨fun hstops => ?_, fun id hdefers => ?_⟩, fun h hhalf =>
      h.1 (.firstPeriod hlifecycle hhalf.1 hhalf.2)⟩
    · cases hstops with
      | renewal hother => exact absurd (hlifecycle.symm.trans hother) (by simp)
      | resumption hother => exact absurd (hlifecycle.symm.trans hother) (by simp)
      | firstPeriod _ hchecks hstops => exact h ⟨hchecks, hstops⟩
      | replacement _ hfirst => exact absurd (hlater.symm.trans hfirst) (by simp)
      | upgrade _ hfirst => exact absurd (hlater.symm.trans hfirst) (by simp)
    · exact absurd (hlater.symm.trans hdefers.later) (by simp)
  | false =>
    cases hid : subscriptionIdFor request.input with
    | error e =>
      refine iff_of_true (by simp [Atomic, settleActivation, hlater, hid]) ⟨fun hstops => ?_,
        fun id hdefers => absurd (hid.symm.trans hdefers.named) (by simp)⟩
      cases hstops with
      | renewal hother => exact absurd (hlifecycle.symm.trans hother) (by simp)
      | resumption hother => exact absurd (hlifecycle.symm.trans hother) (by simp)
      | firstPeriod _ hchecks => exact absurd (hlater.symm.trans hchecks.replacement) (by simp)
      | replacement _ _ hother => exact absurd (hid.symm.trans hother) (by simp)
      | upgrade _ _ hother => exact absurd (hid.symm.trans hother) (by simp)
    | ok id =>
      have hscheduled : Atomic (onSubscriptions (scheduleChange host active.subscription.id
          ⟨tier, creditInterval request.input.interval, active.subscription.paidThroughCycle⟩
          request.now)) w :=
        atomic_onSubscriptions.mpr (atomic_scheduleChange host hnow _)
      have hreplacement : Atomic (onSubscriptions
          (settleReplacement host request active id tier coverage)) w ↔ _ :=
        atomic_onSubscriptions.trans
          (atomic_settleReplacement host request hstored howned hactive.stored hcoverage)
      have hupgrade : Atomic (settleUpgrade host request active id tier coverage) w ↔ _ :=
        atomic_settleUpgrade host request hstored hactive.stored (subscriptionIdFor_nonblank hid)
          hworkspace hcoverage (hactive.live id hid)
      have hbranch : Atomic (settleActivation host request requested (some active) tier coverage) w ↔
          (active.subscription.id ≠ id ∧ planRank tier ≤ planRank active.tier →
            Atomic (onSubscriptions (settleReplacement host request active id tier coverage)) w) ∧
          (planRank active.tier < planRank tier →
            Atomic (settleUpgrade host request active id tier coverage) w) := by
        simp only [Atomic, settleActivation, hlater, Bool.false_eq_true, if_false, wp_bind,
          wp_check_ok hid, wp_ite]
        refine and_congr_right fun _ => ⟨fun h hrank => (h fun hreplaces => ?_).1 hrank,
          fun h _ => ⟨h, fun _ => hscheduled⟩⟩
        omega
      rw [hbranch, hreplacement, hupgrade]
      refine ⟨fun h => ⟨fun hstops => ?_, fun other hdefers => ?_⟩,
        fun h => ⟨fun hreplaces hhalf => ?_, fun hrank hhalf =>
          h.1 (.upgrade hlifecycle hlater hid hrank hhalf)⟩⟩
      · cases hstops with
        | renewal hother => exact absurd (hlifecycle.symm.trans hother) (by simp)
        | resumption hother => exact absurd (hlifecycle.symm.trans hother) (by simp)
        | firstPeriod _ hchecks => exact absurd (hlater.symm.trans hchecks.replacement) (by simp)
        | replacement _ _ hother hrank habsent _ hrefuses =>
          obtain rfl := Except.ok.inj (hid.symm.trans hother)
          exact h.1 hrank ⟨habsent, .inr hrefuses⟩
        | upgrade _ _ hother hrank hhalf =>
          obtain rfl := Except.ok.inj (hid.symm.trans hother)
          exact h.2 hrank hhalf
      · obtain rfl := Except.ok.inj (hid.symm.trans hdefers.named)
        exact h.1 hdefers.replaces ⟨hdefers.absent, .inl hdefers.waits⟩
      · obtain ⟨habsent, hwaits | hrefuses⟩ := hhalf
        · exact h.2 id ⟨hlifecycle, hlater, hid, hreplaces, habsent, hwaits⟩
        · cases hwaits : request.waits host with
          | true => exact h.2 id ⟨hlifecycle, hlater, hid, hreplaces, habsent, hwaits⟩
          | false =>
            exact h.1 (.replacement hlifecycle hlater hid hreplaces habsent hwaits hrefuses)

/-- The branches that write with one call cannot stop half-way. -/
theorem atomic_settleOnce_call (active : Option ActivePlan) :
    Atomic (settlePastDue host request active) w ∧
      Atomic (settleCancelAtPeriodEnd host request active) w ∧
      Atomic (settleExpire host request active) w ∧ Atomic (settleUncancel host request active) w := by
  have hnow : iso host request.now = .ok request.clock.val := iso_isoText host request.clock
  have hcall : ∀ {x : StoreM CreditSubscription}, (∀ s, Atomic x s) → Atomic (onSubscriptions x) w :=
    fun hx => atomic_onSubscriptions.mpr (hx _)
  refine ⟨?_, ?_, ?_, ?_⟩
  · simp only [Atomic, settlePastDue, wp_bind, wp_check, wp_ite, wp_pure,
      wp_of_reads (wp_staleTerminalPeriod host _ _ _), implies_true, true_and, and_true]
    exact fun active _ _ _ stale _ _ => hcall fun s => atomic_markPastDue host hnow
  · simp only [Atomic, settleCancelAtPeriodEnd, wp_bind, wp_check, wp_ite, wp_pure,
      wp_of_reads (wp_staleTerminalPeriod host _ _ _), implies_true, true_and, and_true]
    exact fun active _ stale _ _ => hcall fun s => atomic_scheduleChange host hnow _
  · simp only [Atomic, settleExpire, wp_bind, wp_check, wp_ite, wp_pure,
      wp_of_reads (wp_staleTerminalPeriod host _ _ _), implies_true, true_and, and_true]
    exact fun active _ stale _ _ => hcall fun s => atomic_cancelWhen host hnow _
  · simp only [Atomic, settleUncancel, wp_bind, wp_check, implies_true, and_true]
    exact fun active _ => hcall fun s => atomic_uncancel host hnow

/-- The subscription an event is settled for is a stored one, live unless the event names it. -/
theorem settledFor_of_mapM (hstored : EachStored PlanOrdered w.subscriptions)
    {active : ActivePlan} (hactive : (settledSubscription request
      (w.subscriptions.inWorkspace host request.workspaceId)).mapM (activePlan · request.clock) =
        .ok (some active)) : SettledFor w request active := by
  obtain ⟨-, hnone⟩ | ⟨subscription, a, hsettled, ha, hplan⟩ := mapM_eq_ok.mp hactive
  · exact absurd hnone (by simp)
  obtain rfl := Option.some.inj ha
  obtain rfl : active.subscription = subscription := activePlan_subscription hplan
  obtain hrequested | ⟨-, hmem, hlive⟩ := settledSubscription_eq_some hsettled
  · obtain ⟨hmem, hid⟩ := requestedSubscription_eq_some hrequested
    exact ⟨((mem_inWorkspace host hstored).mp hmem).1, fun id hother hne =>
      absurd (Except.ok.inj (hid.symm.trans hother)) hne⟩
  · exact ⟨((mem_inWorkspace host hstored).mp hmem).1, fun _ _ _ => hlive⟩

/-- Where an activation is settled for no subscription, the id it names is free to open or another
workspace's. -/
theorem get_eq_none_of_opensFor (hstored : EachStored PlanOrdered w.subscriptions)
    (hnone : settledSubscription request
      (w.subscriptions.inWorkspace host request.workspaceId) = none) {id : String}
    (hid : subscriptionIdFor request.input = .ok id)
    (hopens : OpensFor w.subscriptions request.workspaceId id) : w.subscriptions.get id = none := by
  by_contra hsome
  obtain ⟨found, hfound⟩ := Option.ne_none_iff_exists'.mp hsome
  have hmem := (mem_inWorkspace host hstored).mpr ⟨hstored.get_self hfound, hopens found hfound⟩
  have hrequested : requestedSubscription request
      (w.subscriptions.inWorkspace host request.workspaceId) = none := by
    rw [settledSubscription, Option.or_eq_none_iff] at hnone
    exact hnone.1
  have hne : (Text.trim (request.input.subscriptionId.getD "")).isEmpty = false := by
    simp only [subscriptionIdFor] at hid
    split at hid
    · exact absurd hid (by simp)
    · next hempty => simpa using hempty
  rw [requestedSubscription, subscriptionForPayment, hne] at hrequested
  have hfind := List.find?_eq_none.mp hrequested found hmem
  rw [hstored.keyed id found hfound, subscriptionIdFor_eq_ok hid] at hfind
  simp at hfind

/-- An event settled for no subscription stops half-way only when it opens one. -/
theorem atomic_settleActivation_none (hstored : EachStored PlanOrdered w.subscriptions)
    (hworkspace : Text.isBlank request.workspaceId = false)
    (hcoverage : assertCoverage coverage = .ok ()) (hlifecycle : request.input.lifecycle = .activate)
    (hnone : settledSubscription request
      (w.subscriptions.inWorkspace host request.workspaceId) = none)
    (requested : Option CreditSubscription) :
    Atomic (settleActivation host request requested none tier coverage) w ↔
      ¬ StopsBranch host w request requested tier coverage none := by
  cases hid : subscriptionIdFor request.input with
  | error e =>
    refine iff_of_true (by simp [Atomic, settleActivation, hid]) fun hstops => ?_
    cases hstops with
    | opening _ hother => exact absurd (hid.symm.trans hother) (by simp)
  | ok id =>
    have hopening : Atomic (settleActivation host request requested none tier coverage) w ↔
        Atomic (openSubscription host request id tier coverage none) w.subscriptions := by
      rw [← atomic_onSubscriptions]
      simp only [Atomic, settleActivation, wp_bind, wp_check_ok hid]
    rw [hopening, atomic_openSubscription host request hstored (subscriptionIdFor_nonblank hid)
      hworkspace hcoverage (get_eq_none_of_opensFor host request hstored hnone hid)]
    refine not_congr ⟨?_, fun hstops => ?_⟩
    · rintro ⟨startsAt, hstart, hopens, hrefuses⟩
      exact .opening hlifecycle hid hstart hopens hrefuses
    cases hstops with
    | @opening other startsAt _ hother hstart hopens hrefuses =>
      obtain rfl := Except.ok.inj (hid.symm.trans hother)
      exact ⟨startsAt, hstart, hopens, hrefuses⟩

/-- Only a renewal, a resumption or an activation stops half-way. -/
theorem StopsBranch.lifecycle {requested : Option CreditSubscription} {active : Option ActivePlan}
    (h : StopsBranch host w request requested tier coverage active) :
    request.input.lifecycle = .renew ∨ request.input.lifecycle = .resume ∨
      request.input.lifecycle = .activate := by
  cases h with
  | renewal h => exact .inl h
  | resumption h => exact .inr (.inl h)
  | firstPeriod h => exact .inr (.inr h)
  | opening h => exact .inr (.inr h)
  | replacement h => exact .inr (.inr h)
  | upgrade h => exact .inr (.inr h)

/-- **The settlement of a new event is atomic** but for the two kinds. -/
theorem atomic_settlePaymentEvent (hstored : EachStored PlanOrdered w.subscriptions)
    (howned : PeriodsOwned w.subscriptions) (hworkspace : Text.isBlank request.workspaceId = false)
    (hcoverage : assertCoverage coverage = .ok ()) :
    Atomic (settlePaymentEvent host request tier coverage) w ↔
      ∀ active, (settledSubscription request
        (w.subscriptions.inWorkspace host request.workspaceId)).mapM (activePlan · request.clock) =
          .ok active →
        ¬ StopsBranch host w request (requestedSubscription request
          (w.subscriptions.inWorkspace host request.workspaceId)) tier coverage active ∧
        ∀ a id, active = some a → ¬ DefersBranch host w request (requestedSubscription request
          (w.subscriptions.inWorkspace host request.workspaceId)) tier a id := by
  simp only [Atomic, settlePaymentEvent, onSubscriptions, wp_bind, wp_zoom, wp_listForWorkspace,
    wp_check, implies_true, and_true]
  refine forall_congr' fun active => imp_congr_right fun hactive => ?_
  obtain ⟨hpastDue, hcancel, hexpire, huncancel⟩ := atomic_settleOnce_call host request active
  have hnever : ¬ (request.input.lifecycle = .renew ∨ request.input.lifecycle = .resume ∨
      request.input.lifecycle = .activate) →
      ¬ StopsBranch host w request (requestedSubscription request
        (w.subscriptions.inWorkspace host request.workspaceId)) tier coverage active ∧
      ∀ a id, active = some a → ¬ DefersBranch host w request (requestedSubscription request
        (w.subscriptions.inWorkspace host request.workspaceId)) tier a id :=
    fun hother => ⟨fun hstops => hother hstops.lifecycle,
      fun _ _ _ hdefers => hother (.inr (.inr hdefers.lifecycle))⟩
  have hnotDeferred : request.input.lifecycle ≠ .activate → ∀ a id, active = some a →
      ¬ DefersBranch host w request (requestedSubscription request
        (w.subscriptions.inWorkspace host request.workspaceId)) tier a id :=
    fun hother _ _ _ hdefers => hother hdefers.lifecycle
  cases hlifecycle : request.input.lifecycle with
  | past_due => exact iff_of_true hpastDue (hnever (by simp [hlifecycle]))
  | cancel_at_period_end => exact iff_of_true hcancel (hnever (by simp [hlifecycle]))
  | expire => exact iff_of_true hexpire (hnever (by simp [hlifecycle]))
  | uncancel_at_period_end => exact iff_of_true huncancel (hnever (by simp [hlifecycle]))
  | resume =>
    refine Iff.trans ?_ (and_iff_left (hnotDeferred (by simp [hlifecycle]))).symm
    cases active with
    | none =>
      refine iff_of_true (by simp [settleResume]) fun hstops => ?_
      cases hstops with
      | opening hother => exact absurd (hlifecycle.symm.trans hother) (by simp)
    | some a =>
      have hfor := settledFor_of_mapM host request hstored hactive
      refine (atomic_settleResume host request hstored hfor.stored hcoverage).trans
        (not_congr ⟨fun h => .resumption hlifecycle h.1 h.2, fun hstops => ?_⟩)
      cases hstops with
      | resumption _ hchecks hstops => exact ⟨hchecks, hstops⟩
      | renewal hother => exact absurd (hlifecycle.symm.trans hother) (by simp)
      | firstPeriod hother => exact absurd (hlifecycle.symm.trans hother) (by simp)
      | replacement hother => exact absurd (hlifecycle.symm.trans hother) (by simp)
      | upgrade hother => exact absurd (hlifecycle.symm.trans hother) (by simp)
  | renew =>
    refine Iff.trans ?_ (and_iff_left (hnotDeferred (by simp [hlifecycle]))).symm
    cases active with
    | none =>
      refine iff_of_true (by simp [settleRenew]) fun hstops => ?_
      cases hstops with
      | opening hother => exact absurd (hlifecycle.symm.trans hother) (by simp)
    | some a =>
      have hfor := settledFor_of_mapM host request hstored hactive
      refine (atomic_settleRenew host request hstored hfor.stored hcoverage).trans
        (not_congr ⟨fun h => .renewal hlifecycle h.1 h.2, fun hstops => ?_⟩)
      cases hstops with
      | renewal _ hchecks hstops => exact ⟨hchecks, hstops⟩
      | resumption hother => exact absurd (hlifecycle.symm.trans hother) (by simp)
      | firstPeriod hother => exact absurd (hlifecycle.symm.trans hother) (by simp)
      | replacement hother => exact absurd (hlifecycle.symm.trans hother) (by simp)
      | upgrade hother => exact absurd (hlifecycle.symm.trans hother) (by simp)
  | activate =>
    cases active with
    | none =>
      obtain ⟨hnone, -⟩ | ⟨_, _, _, hsome, _⟩ := mapM_eq_ok.mp hactive
      · exact (atomic_settleActivation_none host request hstored hworkspace hcoverage hlifecycle hnone
          _).trans (and_iff_left fun _ _ hsome => absurd hsome (by simp)).symm
      · exact absurd hsome (by simp)
    | some a =>
      have hfor := settledFor_of_mapM host request hstored hactive
      refine (atomic_settleActivation host request hstored howned hworkspace hcoverage hlifecycle hfor
        _).trans (and_congr_right fun _ => ⟨fun h a' id ha => Option.some.inj ha ▸ h id,
          fun h id => h a id rfl⟩)

end Branch

/-! ## The whole settlement -/

section Settlement

variable (digest : SettlementFacts → String)

/-- The facts the request's receipt is kept by. -/
def SettlementRequest.paymentEvent (request : SettlementRequest) : PaymentEventInput where
  workspaceId := request.workspaceId
  paymentEventId := request.input.paymentEventId
  payloadHash := digest (paymentSettlementFacts request.workspaceId request.input)
  compatiblePayloadHashes :=
    (legacyWaffoPaymentSettlementFacts request.workspaceId request.input).map digest
  createdAt := request.now

/-- The request is a new event that passes the service's checks, at this tier and coverage. -/
structure SettledAt (w : World) (request : SettlementRequest) (tier : PaidPlanId)
    (coverage : CreditSubscriptionCoverage) : Prop where
  eventId : assertText request.input.paymentEventId "paymentEventId" = .ok ()
  productId : assertText request.input.paymentProductId "paymentProductId" = .ok ()
  subscriptionId : assertText (request.input.subscriptionId.getD "") "subscriptionId" = .ok ()
  paid : ∃ authority, frozenSettlementAuthority request.input = .ok authority ∧
    settledTier request authority = .ok tier ∧
    settledCoverage request authority tier = .ok coverage
  event : assertPaymentEventInput host (request.paymentEvent digest) = .ok ()
  fresh : w.subscriptions.paymentEvents.get?
    (request.workspaceId, request.input.paymentEventId) = none

theorem paidCoverageForPlan_valid {catalog : CreditPlanCatalog}
    {interval : CreditSubscriptionInterval}
    (h : paidCoverageForPlan catalog tier interval = .ok coverage) :
    assertCoverage coverage = .ok () := by
  simp only [paidCoverageForPlan] at h
  split at h
  · next credits hcredits =>
    obtain rfl := Except.ok.inj h
    have hvalid := (Option.filter_eq_some_iff.mp hcredits).2
    simp only [Bool.and_eq_true, decide_eq_true_eq] at hvalid
    rw [assertCoverage, if_neg (by simp [hvalid])]
  · exact absurd h (by simp)

theorem SettledAt.coverage_valid (h : SettledAt host digest w request tier coverage) :
    assertCoverage coverage = .ok () := by
  obtain ⟨authority, hauthority, -, hcoverage⟩ := h.paid
  cases authority with
  | none => exact paidCoverageForPlan_valid hcoverage
  | some authority =>
    obtain rfl := Except.ok.inj hcoverage
    have hvalid : authority.valid = true := by
      rw [frozenSettlementAuthority] at hauthority
      split at hauthority
      · exact absurd hauthority (by simp)
      · split at hauthority
        · exact absurd hauthority (by simp)
        · next hchecks =>
          obtain rfl := Option.some.inj (Except.ok.inj hauthority)
          simp only [Bool.or_eq_true, not_or] at hchecks
          simpa using hchecks.1.1.1
    simp only [FrozenPlanSettlementAuthority.valid, Bool.and_eq_true, List.all_cons,
      decide_eq_true_eq] at hvalid
    rw [assertCoverage, if_neg (by simp [hvalid])]

theorem SettledAt.workspace_nonblank (h : SettledAt host digest w request tier coverage) :
    Text.isBlank request.workspaceId = false := by
  have hevent := h.event
  unfold assertPaymentEventInput at hevent
  have hblank := (guard_eq_ok.mp hevent).1
  simp only [Bool.or_eq_true, not_or, Bool.not_eq_true] at hblank
  exact hblank.1

/-- **The settlement returns a subscription or leaves both stores as they were.** -/
def SettlesAtomically (w : World) (request : SettlementRequest) : Prop :=
  (result (settlePayment host digest request) w).toOption.join.isSome = true ∨
    final (settlePayment host digest request) w = w

instance (w : World) (request : SettlementRequest) :
    Decidable (SettlesAtomically host digest w request) :=
  inferInstanceAs (Decidable (_ ∨ _))

/-- A deferred settlement is answered with no subscription, any other error thrown. -/
theorem answered_iff {e : Thrown} {p : Prop} :
    ((∀ a, answerDeferred e = some a → a.isSome = true ∨ p) ∧ (answerDeferred e = none → p)) ↔ p := by
  cases e <;> simp [answerDeferred]

section Kept

variable {I : World → Prop}

theorem wp_settleOnce (input : PaymentEventInput) (operation : SettleM CreditSubscription) :
    Wp (settleOnce input operation) w (fun r w' => r.isSome = true ∨ I w') (fun e w' =>
      (∀ a, answerDeferred e = some a → a.isSome = true ∨ I w') ∧
        (answerDeferred e = none → I w')) ↔ Wp operation w (fun _ _ => True) (fun _ => I) := by
  simp only [settleOnce, onSubscriptions, wp_bind, wp_zoom, wp_modify, wp_pure, answered_iff,
    Option.isSome_some, true_or]

/-- What a settlement keeps unless it returns a subscription: what the settlement of its event
keeps when it throws, if it comes to that. -/
theorem wp_settlePayment_iff (hI : I w) :
    Wp (settlePayment host digest request) w (fun r w' => r.isSome = true ∨ I w') (fun _ => I) ↔
      ∀ tier coverage, SettledAt host digest w request tier coverage →
        Wp (settlePaymentEvent host request tier coverage) w (fun _ _ => True) (fun _ => I) := by
  simp only [settlePayment, withPaymentEvent, wp_bind, wp_check, wp_recover, wp_get, hI, implies_true,
    and_true, or_true]
  constructor
  · rintro h tier coverage ⟨heventId, hproductId, hsubscriptionId, hpaid, hevent, hfresh⟩
    obtain ⟨authority, hauthority, htier, hcoverage⟩ := hpaid
    have honce := h () heventId () hproductId () hsubscriptionId authority hauthority tier htier ()
      hevent
    rw [hfresh] at honce
    have hsettled := (wp_settleOnce _ _).mp honce
    rwa [wp_bind, wp_check_ok hcoverage] at hsettled
  · intro h _ heventId _ hproductId _ hsubscriptionId authority hauthority tier htier _ hevent
    split
    · simp only [wp_bind, wp_check, wp_pure, answered_iff, hI, or_true, implies_true, and_self]
    · next hfresh =>
      refine (wp_settleOnce _ _).mpr ?_
      rw [wp_bind, wp_check]
      exact ⟨fun coverage hcoverage => h tier coverage ⟨heventId, hproductId, hsubscriptionId,
        ⟨authority, hauthority, htier, hcoverage⟩, hevent, hfresh⟩, fun _ _ => hI⟩

end Kept

/-- The settlement returns a subscription, or keeps what it should. -/
theorem returns_or_iff (I : World → Prop) :
    (result (settlePayment host digest request) w).toOption.join.isSome = true ∨
        I (final (settlePayment host digest request) w) ↔
      Wp (settlePayment host digest request) w (fun r w' => r.isSome = true ∨ I w')
        (fun _ => I) := by
  rw [← result_or_final]
  refine or_congr_left ?_
  cases result (settlePayment host digest request) w <;> simp [Except.toOption]

/-- A settlement is atomic when the settlement of its event is, if it comes to that. -/
theorem settlesAtomically_iff_event :
    SettlesAtomically host digest w request ↔
      ∀ tier coverage, SettledAt host digest w request tier coverage →
        Atomic (settlePaymentEvent host request tier coverage) w :=
  (returns_or_iff host request digest (· = w)).trans (wp_settlePayment_iff host request digest rfl)

/-- **The settlement stops half-way**: by then the plan has changed, or the period is recorded. -/
def StopsHalfWay (w : World) (request : SettlementRequest) : Prop :=
  ∃ tier coverage active, SettledAt host digest w request tier coverage ∧
    (settledSubscription request (w.subscriptions.inWorkspace host request.workspaceId)).mapM
      (activePlan · request.clock) = .ok active ∧
    StopsBranch host w request (requestedSubscription request
      (w.subscriptions.inWorkspace host request.workspaceId)) tier coverage active

/-- **The settlement is a replacement deferred** until its period begins. -/
def DefersReplacement (w : World) (request : SettlementRequest) : Prop :=
  ∃ tier coverage active id, SettledAt host digest w request tier coverage ∧
    (settledSubscription request (w.subscriptions.inWorkspace host request.workspaceId)).mapM
      (activePlan · request.clock) = .ok (some active) ∧
    DefersBranch host w request (requestedSubscription request
      (w.subscriptions.inWorkspace host request.workspaceId)) tier active id

/-- **There is no third kind.** -/
theorem settlesAtomically_iff_neither (hstored : EachStored PlanOrdered w.subscriptions)
    (howned : PeriodsOwned w.subscriptions) :
    SettlesAtomically host digest w request ↔
      ¬ StopsHalfWay host digest w request ∧ ¬ DefersReplacement host digest w request := by
  have hevent : SettlesAtomically host digest w request ↔ _ :=
    settlesAtomically_iff_event host request digest
  rw [hevent]
  constructor
  · refine fun h => ⟨?_, ?_⟩
    · rintro ⟨tier, coverage, active, hat, hactive, hstops⟩
      exact (((atomic_settlePaymentEvent host request hstored howned
        hat.workspace_nonblank hat.coverage_valid).mp (h tier coverage hat)) active hactive).1 hstops
    · rintro ⟨tier, coverage, active, id, hat, hactive, hdefers⟩
      exact (((atomic_settlePaymentEvent host request hstored howned
        hat.workspace_nonblank hat.coverage_valid).mp (h tier coverage hat)) _ hactive).2 active id rfl
          hdefers
  · rintro ⟨hstops, hdefers⟩ tier coverage hat
    refine (atomic_settlePaymentEvent host request hstored howned hat.workspace_nonblank
      hat.coverage_valid).mpr fun active hactive => ⟨fun h => ?_, fun a id ha h => ?_⟩
    · exact hstops ⟨tier, coverage, active, hat, hactive, h⟩
    · exact hdefers ⟨tier, coverage, a, id, hat, ha ▸ hactive, h⟩

end Settlement

/-! ## Runs of every call -/

section Runs

variable (digest : SettlementFacts → String)

/-- A call of the ledger, of the store or of the service. -/
inductive BillingCall
  | ledger (call : LedgerCall)
  | store (call : StoreCall)
  | settle (request : SettlementRequest)
  deriving DecidableEq

/-- What a call leaves, whether it returns or throws. -/
def BillingCall.step (w : World) : BillingCall → World
  | .ledger call => { w with ledger := LedgerCall.step host w.ledger call }
  | .store call => { w with subscriptions := StoreCall.step host w.subscriptions call }
  | .settle request => request.step host digest w

/-- The stores after the calls, from stores as constructed. -/
def runBilling (calls : List BillingCall) : World :=
  runAll (BillingCall.step host digest) calls .empty

/-- The plans of the store are in order, its periods owned. -/
theorem billing_kept (calls : List BillingCall) :
    EachStored PlanOrdered (runBilling host digest calls).subscriptions ∧
      PeriodsOwned (runBilling host digest calls).subscriptions := by
  have hstep : ∀ (s : MemoryCreditSubscriptionStore) (call : StoreCall),
      EachStored PlanOrdered s ∧ PeriodsOwned s →
      EachStored PlanOrdered (StoreCall.step host s call) ∧
        PeriodsOwned (StoreCall.step host s call) :=
    fun _ call hs => ⟨plansOrdered_step host hs.1 call, periodsOwned_step host hs.1 hs.2 call⟩
  refine runAll_invariant (fun w : World => EachStored PlanOrdered w.subscriptions ∧
    PeriodsOwned w.subscriptions) (fun w call hw => ?_) calls ⟨.empty, ?_⟩
  · cases call with
    | ledger call => exact hw
    | store call => exact hstep _ call hw
    | settle request =>
      exact settlement_keeps host digest (fun s => EachStored PlanOrdered s ∧ PeriodsOwned s) hstep
        (fun _ _ _ _ hs => ⟨hs.1.congr rfl, hs.2⟩) request hw
  · exact fun _ _ _ h => absurd h (by simp [World.empty, MemoryCreditSubscriptionStore.empty])

/-- **Settling is atomic exactly where it neither stops half-way nor is a deferred replacement**, in
every pair of stores reached. -/
theorem settlement_atomic (calls : List BillingCall) :
    SettlesAtomically host digest (runBilling host digest calls) request ↔
      ¬ StopsHalfWay host digest (runBilling host digest calls) request ∧
        ¬ DefersReplacement host digest (runBilling host digest calls) request := by
  obtain ⟨hstored, howned⟩ := billing_kept host digest calls
  exact settlesAtomically_iff_neither host request digest hstored howned

/-- **An upgrade in place, inside its period**, is refused for the facts the period was recorded
with, and has expired the lots by then. -/
theorem not_settlesAtomically_upgrade :
    ¬ SettlesAtomically isoHost digestBySubscription (runBilling isoHost digestBySubscription
      [.settle (monthlyPayment .activate "event-1" "starter" "first")])
      (monthlyPayment .activate "event-2" "growth" "first") := by
  decide +kernel

/-- The payment of the second subscription's first period, a month ahead. -/
def replacementAhead : SettlementRequest :=
  let payment := monthlyPayment .activate "event-2" "starter" "second"
  { payment with
    input := { payment.input with periodStartsAt := some "2026-09-01T00:00:00.000Z" } }

/-- A replacement paid ahead is deferred, and has taken the first subscription over. -/
example : ¬ SettlesAtomically isoHost digestBySubscription (runBilling isoHost digestBySubscription
    [.settle (monthlyPayment .activate "event-1" "starter" "first")]) replacementAhead := by
  decide +kernel

end Runs

end MeiyeAgent
