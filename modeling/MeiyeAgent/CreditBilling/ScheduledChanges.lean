import MeiyeAgent.CreditBilling.StoreWrites

/-!
# CreditBilling/ScheduledChanges — the plan of a cycle, and what undoing a cancellation loses

In a store with its plans in order, each scheduled change is the plan of the cycle it takes effect
in.

* `uncancel_restores_iff` — scheduling a cancellation and undoing it leaves the plan of every cycle
  as it was **exactly when** no change is scheduled that differs from the plan the subscription was
  opened with: `uncancel` clears the whole list, not the entry the cancellation put there.
-/

namespace MeiyeAgent

open Effect

/-! ## The plan of a cycle -/

/-- Two subscriptions have one plan: the same tier and interval in every cycle. -/
def SamePlan (a b : CreditSubscription) : Prop := ∀ k : Nat,
  creditSubscriptionTierForCycle a k = creditSubscriptionTierForCycle b k ∧
    creditSubscriptionIntervalForCycle a k = creditSubscriptionIntervalForCycle b k

/-- No scheduled change differs from the plan the subscription was opened with. -/
def NothingToLose (subscription : CreditSubscription) : Prop :=
  ∀ change ∈ changesFor subscription,
    change.tier = subscription.tier ∧ change.interval = subscription.interval

instance (subscription : CreditSubscription) : Decidable (NothingToLose subscription) :=
  inferInstanceAs (Decidable (∀ change ∈ changesFor subscription, _))

theorem PlanOrdered.changesFor_eq {subscription : CreditSubscription} (h : PlanOrdered subscription) :
    changesFor subscription = subscription.scheduledChanges := by
  rw [changesFor]
  split
  · rfl
  · next hlen =>
    have hnil : subscription.scheduledChanges = [] := List.length_eq_zero_iff.mp (by omega)
    rw [h.pendingTier, hnil]
    rfl

variable {change : CreditSubscriptionScheduledChange}

/-- **Each change is the plan of the cycle it takes effect in.** -/
theorem scheduledChangeForCycle_self {subscription : CreditSubscription}
    (h : ChangesOrdered (changesFor subscription)) (hmem : change ∈ changesFor subscription) :
    scheduledChangeForCycle subscription change.effectiveCycle = some change := by
  obtain ⟨before, later, hsplit⟩ := List.append_of_mem hmem
  have hincreasing := h.increasing
  rw [hsplit, List.pairwise_append, List.pairwise_cons] at hincreasing
  have hnone : later.filter (fun c => c.effectiveCycle ≤ change.effectiveCycle) = [] := by
    refine List.filter_eq_nil_iff.mpr fun c hc => ?_
    have := hincreasing.2.1.1 c hc
    simp only [decide_eq_true_eq]
    omega
  rw [scheduledChangeForCycle, hsplit, List.filter_append, List.filter_cons_of_pos (by simp), hnone]
  simp

/-- A subscription with no changes has the plan it was opened with, in every cycle. -/
theorem samePlan_cleared_iff {after before : CreditSubscription} (hbefore : PlanOrdered before)
    (hcleared : changesFor after = []) (htier : after.tier = before.tier)
    (hinterval : after.interval = before.interval) :
    SamePlan after before ↔ NothingToLose before := by
  have hplan : ∀ cycle, scheduledChangeForCycle after cycle = none := fun _ => by
    rw [scheduledChangeForCycle, hcleared]
    rfl
  constructor
  · intro hsame change hmem
    have hordered : ChangesOrdered (changesFor before) := hbefore.changesFor_eq ▸ hbefore.ordered
    obtain ⟨k, hk⟩ := Int.eq_ofNat_of_zero_le (hordered.nonneg change hmem)
    have hself := scheduledChangeForCycle_self hordered hmem
    have hcycle := hsame k
    rw [← hk] at hcycle
    simp only [creditSubscriptionTierForCycle, creditSubscriptionIntervalForCycle, hplan, hself]
      at hcycle
    exact ⟨(hcycle.1.symm.trans htier), (hcycle.2.symm.trans hinterval)⟩
  · intro hnothing k
    simp only [creditSubscriptionTierForCycle, creditSubscriptionIntervalForCycle, hplan]
    cases hchange : scheduledChangeForCycle before k with
    | none => exact ⟨htier, hinterval⟩
    | some change =>
      have hmem := (List.mem_filter.mp (List.mem_of_getLast? hchange)).1
      exact ⟨htier.trans (hnothing change hmem).1.symm,
        hinterval.trans (hnothing change hmem).2.symm⟩

/-! ## Scheduling and undoing -/

section Undo

variable (host : Host) {s : MemoryCreditSubscriptionStore}

variable {subscription : CreditSubscription}

theorem wp_scheduleChange (hget : s.get subscription.id = some subscription)
    (hlive : subscription.status ≠ .cancelled) (hcycle : 0 ≤ change.effectiveCycle)
    {changes : List CreditSubscriptionScheduledChange}
    (hchanges : scheduleSubscriptionChange subscription change = .ok changes) {atTime : String}
    {ms : Int} (htime : iso host atTime = .ok ms)
    {Q : CreditSubscription → MemoryCreditSubscriptionStore → Prop}
    {E : Thrown → MemoryCreditSubscriptionStore → Prop} :
    Wp (scheduleChange host subscription.id change atTime) s Q E ↔
      Q ((subscription.withChanges changes).updated ms)
        ((s.put (subscription.withChanges changes)).put
          ((subscription.withChanges changes).updated ms)) := by
  simp [scheduleChange, assertPaidThroughCycle_eq_ok.mpr hcycle, wp_requireSubscription_of_get hget,
    hlive, hchanges, wp_touch host htime, CreditSubscription.updated]

theorem wp_uncancel {id : String} (hget : s.get id = some subscription)
    (hlive : subscription.status ≠ .cancelled) {atTime : String} {ms : Int}
    (htime : iso host atTime = .ok ms)
    {Q : CreditSubscription → MemoryCreditSubscriptionStore → Prop}
    {E : Thrown → MemoryCreditSubscriptionStore → Prop} : Wp (uncancel host id atTime) s Q E ↔
      Q (subscription.cleared.updated ms)
        ((s.put subscription.cleared).put (subscription.cleared.updated ms)) := by
  simp [uncancel, wp_requireSubscription_of_get hget, hlive, wp_touch host htime,
    CreditSubscription.cleared, CreditSubscription.updated]

/-- Changes that take effect in a cycle there is are normalised without an error. -/
theorem normalizeScheduledChanges_ok {changes : List CreditSubscriptionScheduledChange}
    (h : ∀ change ∈ changes, 0 ≤ change.effectiveCycle) :
    ∃ normalized, normalizeScheduledChanges changes = .ok normalized := by
  have hfold : ∀ (changes : List CreditSubscriptionScheduledChange)
      (byCycle : OrderedMap Int CreditSubscriptionScheduledChange),
      (∀ change ∈ changes, 0 ≤ change.effectiveCycle) → ∃ collected,
        changes.foldlM (fun (byCycle : OrderedMap Int CreditSubscriptionScheduledChange) change => do
          assertPaidThroughCycle change.effectiveCycle
          pure (byCycle.set change.effectiveCycle change)) byCycle = .ok collected := by
    intro changes
    induction changes with
    | nil => exact fun byCycle _ => ⟨byCycle, rfl⟩
    | cons change changes ih =>
      intro byCycle hall
      obtain ⟨hchange, hrest⟩ := List.forall_mem_cons.mp hall
      obtain ⟨collected, hcollected⟩ := ih (byCycle.set change.effectiveCycle change) hrest
      refine ⟨collected, ?_⟩
      rw [List.foldlM_cons, bind_eq_ok]
      exact ⟨_, bind_eq_ok.mpr ⟨(), assertPaidThroughCycle_eq_ok.mpr hchange, rfl⟩, hcollected⟩
  obtain ⟨collected, hcollected⟩ := hfold changes OrderedMap.empty h
  exact ⟨_, bind_eq_ok.mpr ⟨collected, hcollected, rfl⟩⟩

/-- **A change of a cycle there is can be scheduled.** -/
theorem scheduleSubscriptionChange_ok (h : PlanOrdered subscription)
    (hcycle : 0 ≤ change.effectiveCycle) :
    ∃ changes, scheduleSubscriptionChange subscription change = .ok changes := by
  refine normalizeScheduledChanges_ok fun c hc => ?_
  rcases List.mem_append.mp hc with hold | hnew
  · have hold := (List.mem_filter.mp hold).1
    exact h.ordered.nonneg c (h.changesFor_eq ▸ hold)
  · exact List.mem_singleton.mp hnew ▸ hcycle

/-- Scheduling a change and undoing it leaves the plan of every cycle as it was. -/
def RestoresPlan (s : MemoryCreditSubscriptionStore) (subscription : CreditSubscription)
    (change : CreditSubscriptionScheduledChange) (scheduledAt undoneAt : String) : Prop :=
  Wp (do
      let _ ← scheduleChange host subscription.id change scheduledAt
      uncancel host subscription.id undoneAt) s
    (fun _ s' => ∃ after, s'.get subscription.id = some after ∧ SamePlan after subscription)
    (fun _ _ => False)

/-- **What undoing a cancellation loses**: in a store with its plans in order, the plans are as
before exactly when no scheduled change differs from the opening plan. -/
theorem restoresPlan_iff (h : EachStored PlanOrdered s)
    (hget : s.get subscription.id = some subscription) (hlive : subscription.status ≠ .cancelled)
    (cycle : Int) {scheduledAt undoneAt : String} {t u : Int}
    (hscheduled : iso host scheduledAt = .ok t) (hundone : iso host undoneAt = .ok u) :
    RestoresPlan host s subscription (periodEndCancellation subscription cycle) scheduledAt undoneAt
      ↔ NothingToLose subscription := by
  have hplan := h.each _ _ hget
  have hpaid : 0 ≤ (periodEndCancellation subscription cycle).effectiveCycle := hplan.paidThrough
  obtain ⟨changes, hok⟩ := scheduleSubscriptionChange_ok hplan hpaid
  set scheduled := (subscription.withChanges changes).updated t
  have hscheduledGet : ((s.put (subscription.withChanges changes)).put scheduled).get
      subscription.id = some scheduled := (get_put ..).trans (if_pos rfl)
  have hcleared : SamePlan (scheduled.cleared.updated u) subscription ↔ NothingToLose subscription :=
    samePlan_cleared_iff hplan rfl rfl rfl
  rw [RestoresPlan, wp_bind, wp_scheduleChange host hget hlive hplan.paidThrough hok hscheduled,
    wp_uncancel host hscheduledGet hlive hundone, ← hcleared, get_put,
    if_pos (show subscription.id = (scheduled.cleared.updated u).id from rfl)]
  simp only [Option.some.injEq, exists_eq_left']

/-- **Undoing a cancellation restores the plan exactly when nothing differed**: for every store
reached, every live subscription in it and every cancellation at period end. -/
theorem uncancel_restores_iff (calls : List StoreCall) {subscription : CreditSubscription}
    (hget : (runStore host calls).get subscription.id = some subscription)
    (hlive : subscription.status ≠ .cancelled) (cycle : Int) {scheduledAt undoneAt : String}
    {t u : Int} (hscheduled : iso host scheduledAt = .ok t) (hundone : iso host undoneAt = .ok u) :
    RestoresPlan host (runStore host calls) subscription (periodEndCancellation subscription cycle)
      scheduledAt undoneAt ↔ NothingToLose subscription :=
  restoresPlan_iff host (plansOrdered_run host calls) hget hlive cycle hscheduled hundone

end Undo

/-- A subscription with a change to the plan it already has. -/
def renewedCalls : List StoreCall :=
  [.upsert { id := "sub", workspaceId := "ws", tier := .growth, interval := .monthly,
             anchorAt := "2026-08-01T00:00:00.000Z", paidThroughCycle := 2 },
    .scheduleChange "sub" ⟨.growth, .monthly, 1⟩ "2026-08-02T00:00:00.000Z"]

/-- The subscription those calls store. -/
def renewed : CreditSubscription :=
  { id := "sub", workspaceId := "ws", tier := .growth, interval := .monthly,
    pendingTier := some .growth, pendingInterval := some .monthly, pendingEffectiveCycle := some 1,
    scheduledChanges := [⟨.growth, .monthly, 1⟩], grantCycleOffset := 0, grantLineageId := "sub",
    anchorAt := 1785542400000, paidThroughCycle := 2, status := .active, pastDueAt := none,
    cancelledAt := none, createdAt := 1785542400000, updatedAt := 1785628800000 }

theorem renewed_stored : (runStore isoHost renewedCalls).get renewed.id = some renewed := by
  decide +kernel

theorem uncancel_restores_renewed :
    RestoresPlan isoHost (runStore isoHost renewedCalls) renewed (periodEndCancellation renewed 0)
      "2026-08-03T00:00:00.000Z" "2026-08-04T00:00:00.000Z" := by
  have hscheduled : iso isoHost "2026-08-03T00:00:00.000Z" = .ok 1785715200000 := by decide +kernel
  have hundone : iso isoHost "2026-08-04T00:00:00.000Z" = .ok 1785801600000 := by decide +kernel
  exact (uncancel_restores_iff isoHost renewedCalls renewed_stored (by decide) 0 hscheduled
    hundone).mpr (by decide)

/-! ### A pending downgrade is lost -/

/-- A growth subscription opened with two months paid, to become a starter one after the first. -/
def downgradeCalls : List StoreCall :=
  [.upsert { id := "sub", workspaceId := "ws", tier := .growth, interval := .monthly,
             anchorAt := "2026-08-01T00:00:00.000Z", paidThroughCycle := 2 },
    .scheduleChange "sub" ⟨.starter, .monthly, 1⟩ "2026-08-02T00:00:00.000Z"]

/-- The subscription those calls store. -/
def downgraded : CreditSubscription :=
  { id := "sub", workspaceId := "ws", tier := .growth, interval := .monthly,
    pendingTier := some .starter, pendingInterval := some .monthly, pendingEffectiveCycle := some 1,
    scheduledChanges := [⟨.starter, .monthly, 1⟩], grantCycleOffset := 0, grantLineageId := "sub",
    anchorAt := 1785542400000, paidThroughCycle := 2, status := .active, pastDueAt := none,
    cancelledAt := none, createdAt := 1785542400000, updatedAt := 1785628800000 }

theorem not_uncancel_restores_downgrade :
    (runStore isoHost downgradeCalls).get downgraded.id = some downgraded ∧
      ¬ RestoresPlan isoHost (runStore isoHost downgradeCalls) downgraded
        (periodEndCancellation downgraded 0) "2026-08-03T00:00:00.000Z"
        "2026-08-04T00:00:00.000Z" := by
  have hstored : (runStore isoHost downgradeCalls).get downgraded.id = some downgraded := by
    decide +kernel
  refine ⟨hstored, fun hrestores => ?_⟩
  have hnothing := (restoresPlan_iff isoHost (plansOrdered_run isoHost downgradeCalls) hstored
    (by decide) 0 (show iso isoHost _ = .ok 1785715200000 by decide +kernel)
    (show iso isoHost _ = .ok 1785801600000 by decide +kernel)).mp hrestores
  exact absurd hnothing (by decide)

end MeiyeAgent
