import MeiyeAgent.CreditBilling.SettlementWrites
import MeiyeAgent.CreditBilling.StoreFailures
import MeiyeAgent.CreditBilling.LedgerWrites

/-!
# CreditBilling/Atomicity — which branches of a settlement stop half-way

A branch is atomic when a throw leaves both stores as they were.  Each branch that writes is atomic
exactly outside a condition on what it reads first: `atomic_settleRenew`, `atomic_settleResume`,
`atomic_settleFirstPeriod`, `atomic_openSubscription`, `atomic_settleReplacement` and
`atomic_settleUpgrade`.
-/

namespace MeiyeAgent

open Effect

variable (host : Host) {w : World} (request : SettlementRequest) {tier : PaidPlanId}
  {coverage : CreditSubscriptionCoverage}

/-! ## Branches that record one period -/

/-- The facts recorded for the period the request pays for. -/
def SettlementRequest.periodFacts (request : SettlementRequest)
    (coverage : CreditSubscriptionCoverage) : PaidPeriod :=
  ⟨some coverage, paidCycleCoverage (creditInterval request.input.interval)⟩

/-- The start of the request's period, as text. -/
def SettlementRequest.periodStartsAt (request : SettlementRequest) : String :=
  request.input.periodStartsAt.getD ""

theorem paidCycleCoverage_pos (interval : CreditSubscriptionInterval) :
    1 ≤ paidCycleCoverage interval := by
  cases interval <;> decide

theorem paidPeriodFacts_paidPeriod (hcoverage : assertCoverage coverage = .ok ())
    (id periodStartsAt : String) :
    paidPeriodFacts (paidPeriod request id periodStartsAt coverage) =
      .ok (request.periodFacts coverage) := by
  have hcycles := paidCycleCoverage_pos (creditInterval request.input.interval)
  have hvalid : assertCoverageCycles (paidCycleCoverage (creditInterval request.input.interval)) =
      .ok () := if_neg (by omega)
  exact bind_eq_ok.mpr ⟨(), hvalid, bind_eq_ok.mpr ⟨(), hcoverage, rfl⟩⟩

theorem atomic_onSubscriptions {α : Type} {x : StoreM α} :
    Atomic (onSubscriptions x) w ↔ Atomic x w.subscriptions := by
  obtain ⟨ledger, subscriptions⟩ := w
  simp [Atomic, onSubscriptions]

/-- The checks a renewal passes before it writes. -/
structure Renews (request : SettlementRequest) (active : ActivePlan) (tier : PaidPlanId) : Prop where
  renewable : ¬ (active.interval = .single_month ∧ active.subscription.pendingInterval = none)
  started : assertText request.periodStartsAt "periodStartsAt" = .ok ()
  begun : awaitPeriod host request.periodStartsAt request.clock
    "Credit renewal is waiting for its billing period to start." = .ok ()
  plan : assertFrozenPlan host active.subscription request.periodStartsAt tier
    (creditInterval request.input.interval)
    "Credit renewal does not match the frozen credit subscription tier and interval." = .ok ()

/-- The checks a resumption passes before it writes. -/
structure Resumes (w : World) (request : SettlementRequest) (active : ActivePlan)
    (tier : PaidPlanId) : Prop where
  pastDue : active.subscription.status = .past_due
  started : assertText request.periodStartsAt "periodStartsAt" = .ok ()
  begun : awaitPeriod host request.periodStartsAt request.clock
    "Credit resume is waiting for its paid billing period to start." = .ok ()
  fresh : result (staleTerminalPeriod host active.subscription.id request.input false) w = .ok false
  plan : assertFrozenPlan host active.subscription request.periodStartsAt tier
    (creditInterval request.input.interval)
    "Credit resume does not match the frozen credit subscription tier and interval." = .ok ()

/-- The checks the first period of a replacement passes before it is recorded. -/
structure StartsReplacement (request : SettlementRequest) (requested : Option CreditSubscription)
    (active : ActivePlan) (tier : PaidPlanId) : Prop where
  replacement : activatesReplacement request requested = true
  begun : awaitPeriod host request.periodStartsAt request.clock
    "Credit replacement is waiting for its billing period to start." = .ok ()
  plan : assertFrozenPlan host active.subscription request.periodStartsAt tier
    (creditInterval request.input.interval)
    "Credit replacement does not match the frozen credit subscription tier and interval." = .ok ()

section Period

variable {active : ActivePlan} (hstored : EachStored PlanOrdered w.subscriptions)
  (hget : w.subscriptions.get active.subscription.id = some active.subscription)
  (hcoverage : assertCoverage coverage = .ok ())

include hstored hget hcoverage

theorem atomic_paidPeriod (periodStartsAt : String) :
    Atomic (onSubscriptions (recordPaidPeriod host
      (paidPeriod request active.subscription.id periodStartsAt coverage))) w ↔
      ¬ StopsPaying host w.subscriptions active.subscription periodStartsAt request.clock
        (request.periodFacts coverage) := by
  rw [atomic_onSubscriptions]
  exact atomic_recordPaidPeriod host hstored hget rfl (paidPeriodFacts_paidPeriod request hcoverage _ _)

theorem atomic_settleRenew :
    Atomic (settleRenew host request (some active) tier coverage) w ↔
      ¬ (Renews host request active tier ∧ StopsPaying host w.subscriptions active.subscription
        request.periodStartsAt request.clock (request.periodFacts coverage)) := by
  have hpaid := atomic_paidPeriod host request hstored hget hcoverage
    request.periodStartsAt
  simp only [Atomic, settleRenew, wp_bind, wp_check_ok rfl, wp_ite, wp_throw, wp_check_unit,
    implies_true, true_and, and_true]
  constructor
  · rintro h ⟨hrenews, hstops⟩
    exact hpaid.mp (h hrenews.renewable hrenews.started hrenews.begun hrenews.plan) hstops
  · exact fun h hrenewable hstarted hbegun hplan => hpaid.mpr fun hstops =>
      h ⟨⟨hrenewable, hstarted, hbegun, hplan⟩, hstops⟩

/-- **Resuming after the period is recorded cannot throw**: the subscription is still live. -/
theorem atomic_paidPeriod_resume (hlive : active.subscription.status ≠ .cancelled) :
    Atomic (do
      let paid ← onSubscriptions (recordPaidPeriod host
        (paidPeriod request active.subscription.id request.periodStartsAt coverage))
      if paid.status = .past_due then
        onSubscriptions (resume host active.subscription.id request.now)
      else pure paid) w ↔
    ¬ StopsPaying host w.subscriptions active.subscription request.periodStartsAt request.clock
      (request.periodFacts coverage) := by
  rw [← atomic_paidPeriod host request hstored hget hcoverage]
  have hnow : iso host request.now = .ok request.clock.val := iso_isoText host request.clock
  have hreturned : Wp (recordPaidPeriod host
      (paidPeriod request active.subscription.id request.periodStartsAt coverage)) w.subscriptions
      (StoredLive active.subscription.id) (fun _ _ => True) :=
    recordPaidPeriod_live host hstored ⟨hget, rfl, hlive⟩ rfl (paidPeriodFacts_paidPeriod request hcoverage _ _)
  refine atomic_bind (wp_zoom.mpr (hreturned.mono (fun paid s' hs => ?_) fun _ _ _ => trivial))
  rw [wp_ite]
  exact ⟨fun _ => wp_zoom.mpr (wp_resume host hnow hs), fun _ => (wp_pure _).mpr trivial⟩

theorem atomic_settleResume :
    Atomic (settleResume host request (some active) tier coverage) w ↔
      ¬ (Resumes host w request active tier ∧ StopsPaying host w.subscriptions active.subscription
        request.periodStartsAt request.clock (request.periodFacts coverage)) := by
  have hpaid := atomic_paidPeriod_resume host request hstored hget hcoverage
  simp only [Atomic, settleResume, wp_bind, wp_check_ok rfl, wp_ite, wp_throw, wp_check_unit, wp_pure,
    wp_of_reads (wp_staleTerminalPeriod host _ _ _), ne_eq, not_not, implies_true, true_and,
    and_true] at hpaid ⊢
  constructor
  · rintro h ⟨hresumes, hstops⟩
    have hlive : ¬ active.subscription.status = .cancelled := by rw [hresumes.pastDue]; rintro ⟨⟩
    exact (hpaid hlive).mp (h hresumes.pastDue hresumes.started hresumes.begun false hresumes.fresh
      Bool.false_ne_true hresumes.plan) hstops
  · intro h hdue hstarted hbegun stale hstale hfresh hplan
    have hlive : ¬ active.subscription.status = .cancelled := by rw [hdue]; rintro ⟨⟩
    obtain rfl : stale = false := by simpa using hfresh
    exact (hpaid hlive).mpr fun hstops => h ⟨⟨hdue, hstarted, hbegun, hstale, hplan⟩, hstops⟩

theorem atomic_settleFirstPeriod {requested : Option CreditSubscription}
    (hreplacement : activatesReplacement request requested = true) :
    Atomic (settleActivation host request requested (some active) tier coverage) w ↔
      ¬ (StartsReplacement host request requested active tier ∧
        StopsPaying host w.subscriptions active.subscription request.periodStartsAt request.clock
          (request.periodFacts coverage)) := by
  have hpaid := atomic_paidPeriod host request hstored hget hcoverage request.periodStartsAt
  simp only [Atomic, settleActivation, hreplacement, if_true, wp_bind, wp_check_unit, implies_true,
    and_true]
  constructor
  · rintro h ⟨hstarts, hstops⟩
    exact hpaid.mp (h hstarts.begun hstarts.plan) hstops
  · exact fun h hbegun hplan => hpaid.mpr fun hstops => h ⟨⟨hreplacement, hbegun, hplan⟩, hstops⟩

end Period

/-! ## Opening a subscription -/

section Opening

variable {s : MemoryCreditSubscriptionStore} {id : String} {offset : Option Int}

/-- What `openSubscription` gives `upsert`. -/
def SettlementRequest.opening (request : SettlementRequest) (id : String) (tier : PaidPlanId)
    (offset : Option Int) : CreditSubscriptionInput where
  id := id
  workspaceId := request.workspaceId
  tier := tier
  interval := creditInterval request.input.interval
  anchorAt := request.anchorAt
  paidThroughCycle := paidCycleCoverage (creditInterval request.input.interval)
  grantCycleOffset := offset
  createdAt := some request.now
  updatedAt := some request.now

/-- The id can be opened for the workspace: it is not stored for another. -/
def OpensFor (s : MemoryCreditSubscriptionStore) (workspaceId id : String) : Prop :=
  ∀ old, s.get id = some old → old.workspaceId = workspaceId

/-- **When an upsert opens the subscription**: the start is readable, and the id not another
workspace's. -/
theorem wp_upsert_opening (h : EachStored PlanOrdered s) (hid : Text.isBlank id = false)
    (hworkspace : Text.isBlank request.workspaceId = false) {startsAt : Int}
    (hanchor : iso host request.anchorAt = .ok startsAt)
    (hopens : OpensFor s request.workspaceId id) :
    Wp (upsert host (request.opening id tier offset)) s (fun subscription s' =>
      s' = s.put subscription ∧ Upserted host s (request.opening id tier offset) subscription)
      (fun _ _ => False) := by
  have hnow : iso host request.now = .ok request.clock.val := iso_isoText host request.clock
  have hpaid := paidCycleCoverage_pos (creditInterval request.input.interval)
  have hdate : date host request.anchorAt "anchorAt" = .ok startsAt :=
    date_eq_ok.mpr (date_eq_ok.mp hanchor)
  have hcycles : assertPaidThroughCycle (paidCycleCoverage (creditInterval request.input.interval)) =
      .ok () := assertPaidThroughCycle_eq_ok.mpr (by omega)
  have hinput : assertSubscriptionInput host (request.opening id tier offset) = .ok () := by
    simp [assertSubscriptionInput, SettlementRequest.opening, hid, hworkspace, hdate, hcycles]
  have hchanges : ∃ changes, normalizeScheduledChanges
      (((s.get id).map (·.scheduledChanges)).getD []) = .ok changes := by
    refine normalizeScheduledChanges_ok fun change hchange => ?_
    cases hold : s.get id with
    | none => rw [hold] at hchange; exact absurd hchange List.not_mem_nil
    | some old =>
      rw [hold] at hchange
      exact (h.each _ old hold).ordered.nonneg change hchange
  obtain ⟨changes, hchanges⟩ := hchanges
  have hcreated : ∃ createdAt, (s.get id).elim (iso host request.now)
      (fun old => .ok old.createdAt) = .ok createdAt := by
    cases s.get id with
    | none => exact ⟨_, hnow⟩
    | some old => exact ⟨_, rfl⟩
  obtain ⟨createdAt, hcreated⟩ := hcreated
  rw [hnow] at hcreated
  have hreturns : Wp (upsert host (request.opening id tier offset)) s (fun _ _ => True)
      (fun _ _ => False) := by
    rw [upsert, wp_bind, wp_check_ok hinput]
    simp only [SettlementRequest.opening, wp_ite, wp_throw, wp_bind, wp_get, wp_check, wp_modify,
      wp_pure, Option.none_or, hanchor]
    simp [hchanges, hcreated, hnow, legacyScheduledChanges]
    cases hold : s.get id with
    | none => rfl
    | some old => exact decide_eq_false fun hother => hother (hopens old hold)
  exact (wp_upsert host _).and hreturns |>.mono (fun _ _ hs => hs.1) fun _ _ hs => hs.2

/-- The first period of a subscription opened at its start is refused. -/
def RefusesFirst (s : MemoryCreditSubscriptionStore) (id : String) (startsAt : Int)
    (facts : PaidPeriod) : Prop :=
  Conflicts s id startsAt facts ∨ Miscounts s id startsAt startsAt facts

/-- **How opening fails once it writes**: the subscription is stored, and its first period
refused. -/
theorem wp_openSubscription (h : EachStored PlanOrdered s) (hid : Text.isBlank id = false)
    (hworkspace : Text.isBlank request.workspaceId = false)
    (hcoverage : assertCoverage coverage = .ok ()) {startsAt : Int}
    (hanchor : iso host request.anchorAt = .ok startsAt)
    (hopens : OpensFor s request.workspaceId id) {P : MemoryCreditSubscriptionStore → Prop}
    (hP : ∀ subscription s', Upserted host s (request.opening id tier offset) subscription →
      s'.get = (s.put subscription).get → ¬ P s') :
    Wp (openSubscription host request id tier coverage offset) s (fun _ _ => True) (fun _ => P) ↔
      ¬ RefusesFirst s id startsAt (request.periodFacts coverage) := by
  simp only [openSubscription, wp_bind, wp_pure]
  refine wp_iff_of_returns (wp_upsert_opening host request h hid hworkspace hanchor hopens)
    fun subscription s' hs' => ?_
  obtain ⟨rfl, hupserted⟩ := hs'
  have hanchorAt : subscription.anchorAt = startsAt :=
    Except.ok.inj (hupserted.anchorAt.symm.trans hanchor)
  have hsame : (s.put subscription).periodsOf subscription.id = s.periodsOf id :=
    congrArg s.periodsOf hupserted.id
  have hinitial := wp_recordInitialPaidPeriod host (get_put_self rfl) rfl hanchor
    (paidPeriodFacts_paidPeriod request hcoverage subscription.id request.anchorAt)
    (hP subscription · hupserted)
  rw [hinitial, RefusesFirst, not_or, hanchorAt]
  exact and_congr (not_congr (conflicts_congr hsame)) (not_congr (miscounts_congr hsame))

/-- Where it cannot be opened, nothing is written. -/
theorem wp_openSubscription_refused (hrefused : ¬ ∃ startsAt, iso host request.anchorAt = .ok startsAt ∧
    OpensFor s request.workspaceId id) :
    Wp (openSubscription host request id tier coverage offset) s (fun _ _ => False)
      (fun _ s' => s' = s) := by
  simp only [openSubscription, wp_bind, wp_pure]
  refine (wp_upsert host (request.opening id tier offset)).mono (fun subscription s' hs' => ?_)
    fun _ _ hs' => hs'
  exact absurd ⟨_, hs'.2.anchorAt, hs'.2.sameWorkspace⟩ hrefused

/-- **Opening is atomic for an id that is free** unless its first period is refused. -/
theorem atomic_openSubscription (h : EachStored PlanOrdered s) (hid : Text.isBlank id = false)
    (hworkspace : Text.isBlank request.workspaceId = false)
    (hcoverage : assertCoverage coverage = .ok ())
    (habsent : OpensFor s request.workspaceId id → s.get id = none) :
    Atomic (openSubscription host request id tier coverage offset) s ↔
      ¬ ∃ startsAt, iso host request.anchorAt = .ok startsAt ∧ OpensFor s request.workspaceId id ∧
        RefusesFirst s id startsAt (request.periodFacts coverage) := by
  by_cases hopened : ∃ startsAt, iso host request.anchorAt = .ok startsAt ∧
      OpensFor s request.workspaceId id
  · obtain ⟨startsAt, hanchor, hopens⟩ := hopened
    rw [Atomic, wp_openSubscription host request h hid hworkspace hcoverage hanchor hopens]
    · refine not_congr ⟨fun hrefuses => ⟨startsAt, hanchor, hopens, hrefuses⟩, ?_⟩
      rintro ⟨other, hother, -, hrefuses⟩
      exact Except.ok.inj (hanchor.symm.trans hother) ▸ hrefuses
    · rintro subscription s' hupserted hget rfl
      have hstored : s'.get id = some subscription :=
        (congrFun hget id).trans (get_put_self hupserted.id)
      exact absurd ((habsent hopens).symm.trans hstored) (by simp)
  · refine iff_of_true ((wp_openSubscription_refused host request hopened).mono
      (fun _ _ hfalse => hfalse.elim) fun _ _ hs' => hs') ?_
    rintro ⟨startsAt, hanchor, hopens, -⟩
    exact hopened ⟨startsAt, hanchor, hopens⟩

end Opening

/-! ## Replacements -/

section Replacement

variable {s : MemoryCreditSubscriptionStore} {active : ActivePlan} {id : String}

/-- The period, recorded for a subscription that takes over the periods of `source`, is refused. -/
def RefusesPeriod (s : MemoryCreditSubscriptionStore) (source : CreditSubscription)
    (request : SettlementRequest) (facts : PaidPeriod) : Prop :=
  ∀ startsAt, iso host request.anchorAt = .ok startsAt →
    isoTextAfter startsAt request.clock = false ∧
      (Conflicts s source.id startsAt facts ∨ Overruns s source.id source.anchorAt startsAt facts)

/-- The period of the request has not begun. -/
def SettlementRequest.waits (request : SettlementRequest) : Bool :=
  Num.gt (host.dateParse request.anchorAt) (some request.clock.val)

theorem wp_recordPaidPeriod_replacing {t : MemoryCreditSubscriptionStore}
    (h : EachStored PlanOrdered t) {subscription source : CreditSubscription}
    (hstored : StoredLive id subscription t) (hcoverage : assertCoverage coverage = .ok ())
    (hanchor : subscription.anchorAt = source.anchorAt)
    (hperiods : t.periodsOf id = s.periodsOf source.id) {P : MemoryCreditSubscriptionStore → Prop}
    (hP : ∀ t', t'.get = t.get → ¬ P t') :
    Wp (recordPaidPeriod host (paidPeriod request id request.anchorAt coverage)) t (fun _ _ => True)
      (fun _ => P) ↔ ¬ RefusesPeriod host s source request (request.periodFacts coverage) := by
  have hfacts := paidPeriodFacts_paidPeriod request hcoverage id request.anchorAt
  have hlive : Wp (recordPaidPeriod host (paidPeriod request id request.anchorAt coverage)) t
      (StoredLive id) (fun _ _ => True) := recordPaidPeriod_live host h hstored rfl hfacts
  have hreturned : Wp (recordPaidPeriod host (paidPeriod request id request.anchorAt coverage)) t
        (fun _ _ => True) (fun _ => P) ↔
      Wp (recordPaidPeriod host (paidPeriod request id request.anchorAt coverage)) t
        (StoredLive id) (fun _ => P) :=
    ⟨fun hw => (hlive.and hw).mono (fun _ _ hs => hs.1) fun _ _ hs => hs.2,
      fun hw => hw.mono (fun _ _ _ => trivial) fun _ _ hs => hs⟩
  cases hstart : iso host request.anchorAt with
  | error e =>
    have hrefused : RefusesPeriod host s source request (request.periodFacts coverage) :=
      fun startsAt hok => absurd (hstart.symm.trans hok) (by simp)
    have hfails : ¬ P t := hP t rfl
    simp [recordPaidPeriod, paidPeriod, wp_requireSubscription_of_get hstored.1, hstart, hrefused,
      hfails]
  | ok startsAt =>
    have hfails := wp_recordPaidPeriod host h hstored hstart rfl hfacts P
    have ht : ¬ P t := hP t rfl
    have hrecorded : ¬ P (t.recordPeriod id startsAt (request.periodFacts coverage)) := hP _ rfl
    rw [hreturned]
    refine hfails.trans ?_
    simp only [RefusesPeriod, hstart, Except.ok.injEq, forall_eq', paidPeriod,
      conflicts_congr hperiods, overruns_congr hperiods, hanchor, ht, hrecorded, not_and, not_or]

/-- The store once `subscription`, stored under a new id, has taken `source` over. -/
structure TakenOver (s t : MemoryCreditSubscriptionStore) (source : CreditSubscription) (id : String)
    (subscription : CreditSubscription) : Prop where
  plans : EachStored PlanOrdered t
  absent : s.get id = none
  stored : StoredLive id subscription t
  anchorAt : subscription.anchorAt = source.anchorAt
  paidThroughCycle : subscription.paidThroughCycle = source.paidThroughCycle
  periods : t.periodsOf id = s.periodsOf source.id

/-- While the new id is stored, the store is not the one before. -/
theorem TakenOver.ne {t t' : MemoryCreditSubscriptionStore} {source subscription : CreditSubscription}
    (ht : TakenOver s t source id subscription) (hstored : (t'.get id).isSome = true) : ¬ t' = s := by
  rintro rfl
  rw [ht.absent] at hstored
  exact absurd hstored (by simp)

section

variable {t : MemoryCreditSubscriptionStore} {source subscription : CreditSubscription}
  (ht : TakenOver s t source id subscription) (hcoverage : assertCoverage coverage = .ok ())

include ht

theorem takenOver_isSome : (t.get id).isSome = true := by
  rw [ht.stored.1]
  rfl

include hcoverage

theorem atomic_replacing :
    Wp (recordPaidPeriod host (paidPeriod request id request.anchorAt coverage)) t
      (fun _ _ => True) (fun _ s' => s' = s) ↔
        ¬ RefusesPeriod host s source request (request.periodFacts coverage) :=
  wp_recordPaidPeriod_replacing host request ht.plans ht.stored hcoverage ht.anchorAt ht.periods
    fun _ hget => ht.ne (hget ▸ takenOver_isSome ht)

/-- A replacement of the same plan records the period, and is then deferred. -/
theorem atomic_replacing_same :
    Wp (recordPaidPeriod host (paidPeriod request id request.anchorAt coverage)) t
      (fun _ s' => request.waits host = true → s' = s) (fun _ s' => s' = s) ↔
        ¬ (request.waits host = true ∨
          RefusesPeriod host s source request (request.periodFacts coverage)) := by
  cases hwaits : request.waits host with
  | true =>
    refine iff_of_false (fun hkept => ?_) (not_not_intro (.inl rfl))
    have hstored := isSome_get_step host ht.plans
      (.recordPaidPeriod (paidPeriod request id request.anchorAt coverage)) (takenOver_isSome ht)
    exact ht.ne hstored (wp_final.mp (hkept.mono (fun _ _ hs' => hs' rfl) fun _ _ hs' => hs'))
  | false =>
    simp only [Bool.false_eq_true, false_implies, false_or]
    exact atomic_replacing host request ht hcoverage

/-- A replacement of another plan is scheduled, and then deferred or its period recorded. -/
theorem atomic_replacing_scheduled (tier : PaidPlanId) :
    Wp (scheduleChange host id ⟨tier, creditInterval request.input.interval,
        source.paidThroughCycle⟩ request.now) t
      (fun scheduled s' => (request.waits host = true → s' = s) ∧ (request.waits host = false →
        Wp (recordPaidPeriod host (paidPeriod request scheduled.id request.anchorAt coverage)) s'
          (fun _ _ => True) fun _ s' => s' = s)) (fun _ s' => s' = s) ↔
        ¬ (request.waits host = true ∨
          RefusesPeriod host s source request (request.periodFacts coverage)) := by
  have hnow : iso host request.now = .ok request.clock.val := iso_isoText host request.clock
  obtain ⟨hget, hid, hlive⟩ := ht.stored
  have hplan := ht.plans.each _ _ hget
  have hcycle : 0 ≤ (CreditSubscriptionScheduledChange.mk tier (creditInterval request.input.interval)
      source.paidThroughCycle).effectiveCycle := ht.paidThroughCycle ▸ hplan.paidThrough
  obtain ⟨changes, hchanges⟩ := scheduleSubscriptionChange_ok hplan hcycle
  have hordered : PlanOrdered (subscription.withChanges changes) :=
    planOrdered_withChanges (changesOrdered_normalize hchanges) hplan.paidThrough
  have hscheduled : TakenOver s ((t.put (subscription.withChanges changes)).put
      ((subscription.withChanges changes).updated request.clock)) source id
      ((subscription.withChanges changes).updated request.clock) :=
    ⟨(ht.plans.put hordered).put (hordered.restated ..), ht.absent, ⟨get_put_self hid, hid, hlive⟩,
      ht.anchorAt, ht.paidThroughCycle, ht.periods⟩
  have hpaid := atomic_replacing host request hscheduled hcoverage
  have hchanged := hscheduled.ne (takenOver_isSome hscheduled)
  subst hid
  rw [wp_scheduleChange host hget hlive hcycle hchanges hnow]
  cases request.waits host with
  | true => simp [hchanged]
  | false =>
    simp only [Bool.false_eq_true, false_implies, true_implies, true_and, false_or]
    exact hpaid

end

/-- **A replacement stops half-way** when its period is refused or has not begun: by then the source
is taken over. -/
theorem atomic_settleReplacement (h : EachStored PlanOrdered s) (howned : PeriodsOwned s)
    (hget : s.get active.subscription.id = some active.subscription)
    (hcoverage : assertCoverage coverage = .ok ()) :
    Atomic (settleReplacement host request active id tier coverage) s ↔
      ¬ (s.get id = none ∧ (request.waits host = true ∨
        RefusesPeriod host s active.subscription request (request.periodFacts coverage))) := by
  have hnow : iso host request.now = .ok request.clock.val := iso_isoText host request.clock
  have hplan := h.each _ _ hget
  have hwaits : Num.gt (host.dateParse request.anchorAt) (some request.clock.val) =
      request.waits host := rfl
  simp only [Atomic, settleReplacement, wp_bind, wp_replaceSubscription host hget hnow, wp_ite,
    wp_throw, wp_pure, implies_true, true_and, and_true, not_and, hwaits, Bool.not_eq_true]
  refine imp_congr_right fun habsent => ?_
  have ht : TakenOver s (s.takenOver active.subscription id request.clock) active.subscription id
      (active.subscription.replacement id request.clock) :=
    ⟨eachStored_takenOver h hplan, habsent, ⟨(get_takenOver id).trans (get_put_self rfl), rfl,
      by rintro ⟨⟩⟩, rfl, rfl, periodsOf_takenOver howned habsent⟩
  have hsame := atomic_replacing_same host request ht hcoverage
  have hscheduled := atomic_replacing_scheduled host request ht hcoverage tier
  refine ⟨fun h => ?_, fun hsettles => ⟨fun _ => hscheduled.mpr hsettles,
    fun _ => hsame.mpr hsettles⟩⟩
  by_cases hc : planRank tier < planRank active.tier ∨
      creditInterval request.input.interval ≠ active.interval
  · exact hscheduled.mp (h.1 hc)
  · exact hsame.mp (h.2 (by simpa using hc))

end Replacement

/-! ## Upgrades -/

section Upgrade

/-- The lots an upgrade revokes. -/
def MemoryCreditLedger.revocableLots (l : MemoryCreditLedger) (workspaceId subscriptionId : String) :
    List CreditGrantLot :=
  l.lots.filter fun lot => lot.isRenewalOf workspaceId subscriptionId && 0 < lot.remainingCredits

theorem length_expireAll (family actorId correlationId createdAt : String) :
    ∀ (lots : List CreditGrantLot) (l : MemoryCreditLedger),
      (expireAll family actorId correlationId createdAt lots l).transactions.length =
        l.transactions.length + lots.length
  | [], _ => rfl
  | lot :: lots, l => by
    have ih := length_expireAll family actorId correlationId createdAt lots
      ((l.setRemaining lot.workspaceId lot.id 0).push
        (expireTransaction family lot actorId correlationId createdAt))
    refine ih.trans ?_
    simp only [MemoryCreditLedger.push, MemoryCreditLedger.setRemaining, List.length_append,
      List.length_cons, List.length_nil]
    omega

/-- **A revocation cannot throw**, and shows in the ledger unless there is nothing to revoke. -/
theorem wp_expireSubscriptionLots (input : ExpireSubscriptionLotsInput) {l : MemoryCreditLedger} :
    Wp (expireSubscriptionLots input) l
      (fun _ l' => l' = l ↔ l.revocableLots input.workspaceId input.subscriptionId = [])
      (fun _ _ => False) := by
  rw [expireSubscriptionLots, wp_bind, wp_get, Wp, expireEach_eq]
  constructor
  · intro hsame
    have hlength := length_expireAll "expire-subscription" input.actorId input.correlationId
      input.createdAt (l.revocableLots input.workspaceId input.subscriptionId) l
    have hkept : (expireAll "expire-subscription" input.actorId input.correlationId input.createdAt
        (l.revocableLots input.workspaceId input.subscriptionId) l) = l := hsame
    rw [hkept] at hlength
    exact List.length_eq_zero_iff.mp (by omega)
  · intro hnone
    rw [MemoryCreditLedger.revocableLots] at hnone
    rw [hnone]
    rfl

variable {s : MemoryCreditSubscriptionStore} {subscription : CreditSubscription}

/-- The store with the subscription cancelled. -/
structure CancelledIn (s : MemoryCreditSubscriptionStore) (subscription : CreditSubscription)
    (s' : MemoryCreditSubscriptionStore) : Prop where
  plans : EachStored PlanOrdered s'
  periods : s'.paidPeriods = s.paidPeriods
  others : ∀ id, id ≠ subscription.id → s'.get id = s.get id
  cancelled : ∃ c, s'.get subscription.id = some c ∧ c.status = .cancelled ∧
    c.workspaceId = subscription.workspaceId
  unchanged : subscription.status = .cancelled → s' = s

theorem wp_cancel_stored (h : EachStored PlanOrdered s)
    (hget : s.get subscription.id = some subscription) {atTime : String} {now : Int}
    (hnow : iso host atTime = .ok now) :
    Wp (cancel host subscription.id atTime) s (fun _ s' => CancelledIn s subscription s')
      (fun _ _ => False) := by
  have hplan := h.each _ _ hget
  simp only [cancel, cancelWhen, wp_bind, wp_requireSubscription_of_get hget, wp_ite, wp_pure,
    wp_touch host hnow, decide_eq_true_eq, not_not, ne_eq]
  refine ⟨fun hlive => ?_, fun hcancelled => ⟨h, rfl, fun _ _ => rfl,
    ⟨subscription, hget, hcancelled, rfl⟩, fun _ => rfl⟩⟩
  refine ⟨(h.put (hplan.restated ..)).put (hplan.restated ..), rfl, fun id hid => ?_,
    ⟨_, get_put_self rfl, rfl, rfl⟩, fun hcancelled => absurd hcancelled hlive⟩
  rw [get_put, if_neg hid, get_put, if_neg hid]

/-- Cancelling a subscription of the workspace leaves free what was free. -/
theorem CancelledIn.opensFor {s' : MemoryCreditSubscriptionStore} (hs' : CancelledIn s subscription s')
    (hget : s.get subscription.id = some subscription) {workspaceId id : String} :
    OpensFor s' workspaceId id ↔ OpensFor s workspaceId id := by
  obtain ⟨c, hc, -, hworkspace⟩ := hs'.cancelled
  by_cases hid : id = subscription.id
  · subst hid
    rw [OpensFor, OpensFor, hc, hget]
    simp [hworkspace]
  · rw [OpensFor, OpensFor, hs'.others id hid]

/-- **How an upgrade stops half-way**: the first period of the subscription it opens is refused, or
it opens none, with something revoked or cancelled by then. -/
inductive HalfUpgrades (w : World) (request : SettlementRequest) (active : ActivePlan) (id : String)
    (coverage : CreditSubscriptionCoverage) : Prop
  | refused {startsAt : Int} (hstart : iso host request.anchorAt = .ok startsAt)
      (hopens : OpensFor w.subscriptions request.workspaceId id)
      (hrefuses : RefusesFirst w.subscriptions id startsAt (request.periodFacts coverage)) :
      HalfUpgrades w request active id coverage
  | unopened
      (hunopened : ¬ ∃ startsAt, iso host request.anchorAt = .ok startsAt ∧
        OpensFor w.subscriptions request.workspaceId id)
      (hwritten : active.subscription.status ≠ .cancelled ∨ w.ledger.revocableLots
        request.workspaceId active.subscription.grantLineageId ≠ []) :
      HalfUpgrades w request active id coverage

theorem atomic_settleUpgrade (h : EachStored PlanOrdered w.subscriptions) {active : ActivePlan}
    (hget : w.subscriptions.get active.subscription.id = some active.subscription) {id : String}
    (hid : Text.isBlank id = false) (hworkspace : Text.isBlank request.workspaceId = false)
    (hcoverage : assertCoverage coverage = .ok ())
    (hother : active.subscription.id ≠ id → active.subscription.status ≠ .cancelled) :
    Atomic (settleUpgrade host request active id tier coverage) w ↔
      ¬ HalfUpgrades host w request active id coverage := by
  have hnow : iso host request.now = .ok request.clock.val := iso_isoText host request.clock
  simp only [Atomic, settleUpgrade, wp_bind, onLedger, onSubscriptions, wp_zoom]
  refine wp_iff_of_returns (wp_expireSubscriptionLots _) fun _ l' hl' =>
    wp_iff_of_returns (wp_cancel_stored host h hget hnow) fun _ s' hs' => ?_
  obtain ⟨c, hc, hcancelled, -⟩ := hs'.cancelled
  have hworld : ∀ t : MemoryCreditSubscriptionStore,
      (World.mk l' t = w ↔ l' = w.ledger ∧ t = w.subscriptions) := by
    obtain ⟨ledger, subscriptions⟩ := w
    simp
  by_cases hopened : ∃ startsAt, iso host request.anchorAt = .ok startsAt ∧
      OpensFor w.subscriptions request.workspaceId id
  · obtain ⟨startsAt, hstart, hopens⟩ := hopened
    have hperiods : s'.periodsOf id = w.subscriptions.periodsOf id := by
      rw [MemoryCreditSubscriptionStore.periodsOf, hs'.periods]
      rfl
    have hrefuses : RefusesFirst s' id startsAt (request.periodFacts coverage) ↔
        RefusesFirst w.subscriptions id startsAt (request.periodFacts coverage) :=
      or_congr (conflicts_congr hperiods) (miscounts_congr hperiods)
    rw [wp_openSubscription host request hs'.plans hid hworkspace hcoverage hstart
      ((hs'.opensFor hget).mpr hopens), hrefuses]
    · refine not_congr ⟨.refused hstart hopens, fun hhalf => ?_⟩
      cases hhalf with
      | refused hother _ hrefused => exact Except.ok.inj (hother.symm.trans hstart) ▸ hrefused
      | unopened hunopened => exact absurd ⟨startsAt, hstart, hopens⟩ hunopened
    · intro subscription t hupserted htget hsame
      obtain ⟨-, rfl⟩ := (hworld t).mp hsame
      by_cases hreopened : active.subscription.id = id
      · have hstored : w.subscriptions.get id = some subscription :=
          (congrFun htget id).trans (get_put_self hupserted.id)
        obtain rfl := Option.some.inj ((hreopened ▸ hget).symm.trans hstored)
        -- the offset moves on by what was paid, and a new subscription is paid through a cycle
        have hoffset := hupserted.grantCycleOffset
        have hpaid := hupserted.paidThroughCycle
        have hpositive := paidCycleCoverage_pos (creditInterval request.input.interval)
        simp only [SettlementRequest.opening, hreopened, ne_eq, not_true_eq_false, if_false,
          Option.getD_some] at hoffset hpaid
        omega
      · have hkept : w.subscriptions.get active.subscription.id = some c := by
          rw [htget, get_put, if_neg fun heq => hreopened (heq.trans hupserted.id), hc]
        obtain rfl := Option.some.inj (hget.symm.trans hkept)
        exact hother hreopened hcancelled
  · have hunopened : ¬ ∃ startsAt, iso host request.anchorAt = .ok startsAt ∧
        OpensFor s' request.workspaceId id := by rwa [hs'.opensFor hget]
    refine wp_iff_of_throws (wp_openSubscription_refused host request hunopened) fun _ t ht => ?_
    obtain rfl : t = s' := ht
    refine (hworld t).trans ⟨?_, fun hhalf => ?_⟩
    · rintro ⟨hledger, hstore⟩ (⟨hstart, hopens, -⟩ | ⟨-, hlive | hlots⟩)
      · exact hopened ⟨_, hstart, hopens⟩
      · rw [hstore, hget] at hc
        exact hlive (Option.some.inj hc ▸ hcancelled)
      · exact hlots (hl'.mp hledger)
    · have hnone : ¬ (active.subscription.status ≠ .cancelled ∨ w.ledger.revocableLots
          request.workspaceId active.subscription.grantLineageId ≠ []) :=
        fun hwritten => hhalf (.unopened hopened hwritten)
      rw [not_or, not_not, not_not] at hnone
      exact ⟨hl'.mpr hnone.2, hs'.unchanged hnone.1⟩

end Upgrade

end MeiyeAgent
