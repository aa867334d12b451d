import MeiyeAgent.CreditBilling.SubscriptionStore

/-!
# CreditBilling/StoreWrites — what the store's operations write

Every operation of the subscription store, whichever way it ends, is a chain of three writes
(`StoreWrite`): it **amends** a stored subscription, keeping what identifies it and never bringing
a cancelled one back; it **opens** a subscription; or it records a paid **period** of a stored one.
Only `upsert` and `replaceSubscription` open.

An invariant of the store is checked on the three writes, and holds of every store reached:

* `plansOrdered_run` — the scheduled changes of every stored subscription are in the order of their
  cycles, one a cycle, and the first is shown as pending.
* `periodsOwned_run` — a recorded period belongs to a stored subscription.
-/

namespace MeiyeAgent

open Effect Relation

/-! ## Ordered changes -/

/-- The changes are in the order of their cycles, one a cycle. -/
structure ChangesOrdered (changes : List CreditSubscriptionScheduledChange) : Prop where
  increasing : changes.Pairwise fun a b => a.effectiveCycle < b.effectiveCycle
  nonneg : ∀ change ∈ changes, 0 ≤ change.effectiveCycle

theorem ChangesOrdered.nil : ChangesOrdered [] := ⟨List.Pairwise.nil, fun _ h => absurd h (by simp)⟩

/-- The map the changes are collected in. -/
structure CollectsChanges (byCycle : OrderedMap Int CreditSubscriptionScheduledChange) : Prop where
  keyed : ∀ e ∈ byCycle.entries, e.2.effectiveCycle = e.1
  nonneg : ∀ e ∈ byCycle.entries, 0 ≤ e.1

theorem CollectsChanges.foldlM : ∀ (changes : List CreditSubscriptionScheduledChange)
    {byCycle byCycle' : OrderedMap Int CreditSubscriptionScheduledChange},
    CollectsChanges byCycle →
    changes.foldlM (fun (byCycle : OrderedMap Int CreditSubscriptionScheduledChange) change => do
      assertPaidThroughCycle change.effectiveCycle
      pure (byCycle.set change.effectiveCycle change)) byCycle = .ok byCycle' →
    CollectsChanges byCycle'
  | [], _, _, h, hok => by
    rw [List.foldlM_nil, pure_eq_ok] at hok
    exact hok ▸ h
  | change :: changes, byCycle, _, h, hok => by
    rw [List.foldlM_cons, bind_eq_ok] at hok
    obtain ⟨next, hnext, hrest⟩ := hok
    obtain ⟨_, hcheck, hset⟩ := bind_eq_ok.mp hnext
    obtain rfl := pure_eq_ok.mp hset
    have hcycle : 0 ≤ change.effectiveCycle := by
      by_contra hneg
      rw [assertPaidThroughCycle, if_pos (by omega)] at hcheck
      exact absurd hcheck (by simp)
    refine CollectsChanges.foldlM changes ⟨fun e he => ?_, fun e he => ?_⟩ hrest
    · rcases OrderedMap.mem_set.mp he with rfl | ⟨he, -⟩
      · rfl
      · exact h.keyed e he
    · rcases OrderedMap.mem_set.mp he with rfl | ⟨he, -⟩
      · exact hcycle
      · exact h.nonneg e he

/-- **Normalised changes are ordered**: the map keeps one change a cycle, the sort puts them in
order. -/
theorem changesOrdered_normalize {changes normalized : List CreditSubscriptionScheduledChange}
    (h : normalizeScheduledChanges changes = .ok normalized) : ChangesOrdered normalized := by
  obtain ⟨byCycle, hfold, hsorted⟩ := bind_eq_ok.mp h
  obtain rfl := pure_eq_ok.mp hsorted
  have hcollect : CollectsChanges byCycle :=
    CollectsChanges.foldlM changes ⟨fun _ he => absurd he (by simp [OrderedMap.empty]),
      fun _ he => absurd he (by simp [OrderedMap.empty])⟩ hfold
  have hperm := sortBy_perm (fun left right : CreditSubscriptionScheduledChange =>
    some (left.effectiveCycle - right.effectiveCycle)) byCycle.values
  have hmem : ∀ change ∈ byCycle.values, (change.effectiveCycle, change) ∈ byCycle.entries := by
    intro change hchange
    obtain ⟨e, he, rfl⟩ := List.mem_map.mp hchange
    rw [hcollect.keyed e he]
    exact he
  refine ⟨?_, fun change hchange => hcollect.nonneg _ (hmem change (hperm.mem_iff.mp hchange))⟩
  have hkeys : (byCycle.values.map (·.effectiveCycle)).Nodup := by
    have hsame : byCycle.values.map (·.effectiveCycle) = byCycle.entries.map Prod.fst := by
      rw [OrderedMap.values, List.map_map]
      exact List.map_congr_left fun e he => hcollect.keyed e he
    exact hsame ▸ byCycle.nodup
  have hdistinct := List.pairwise_map.mp ((hperm.map _).nodup_iff.mpr hkeys)
  have hsorted := sortBy_sorted (fun change : CreditSubscriptionScheduledChange =>
    change.effectiveCycle) byCycle.values
  exact (hsorted.and hdistinct).imp fun h => lt_of_le_of_ne h.1 h.2

/-! ## Stored subscriptions -/

/-- A stored subscription shows its plan in order, and is paid through a cycle there is. -/
structure PlanOrdered (subscription : CreditSubscription) : Prop where
  ordered : ChangesOrdered subscription.scheduledChanges
  pendingTier : subscription.pendingTier = subscription.scheduledChanges.head?.map (·.tier)
  pendingInterval : subscription.pendingInterval =
    subscription.scheduledChanges.head?.map (·.interval)
  pendingEffectiveCycle : subscription.pendingEffectiveCycle =
    subscription.scheduledChanges.head?.map (·.effectiveCycle)
  paidThrough : 0 ≤ subscription.paidThroughCycle

/-- **What holds of every stored subscription**, each stored under its own id. -/
structure EachStored (P : CreditSubscription → Prop) (s : MemoryCreditSubscriptionStore) :
    Prop where
  keyed : ∀ id subscription, s.get id = some subscription → subscription.id = id
  each : ∀ id subscription, s.get id = some subscription → P subscription

section Stored

variable {P : CreditSubscription → Prop} {s : MemoryCreditSubscriptionStore}

@[simp] theorem get_empty (id : String) : MemoryCreditSubscriptionStore.empty.get id = none := rfl

theorem EachStored.empty : EachStored P .empty :=
  ⟨fun _ _ h => absurd h (by simp), fun _ _ h => absurd h (by simp)⟩

variable {subscription : CreditSubscription}

@[simp] theorem get_put (subscription : CreditSubscription) (id : String) :
    (s.put subscription).get id = if id = subscription.id then some subscription else s.get id :=
  OrderedMap.get?_set

theorem EachStored.put (h : EachStored P s) (hP : P subscription) :
    EachStored P (s.put subscription) := by
  refine ⟨fun id other hget => ?_, fun id other hget => ?_⟩ <;> rw [get_put] at hget
  · split at hget
    · next hid => exact Option.some.inj hget ▸ hid.symm
    · exact h.keyed id other hget
  · split at hget
    · exact Option.some.inj hget ▸ hP
    · exact h.each id other hget

theorem EachStored.congr (h : EachStored P s) {s' : MemoryCreditSubscriptionStore}
    (hsame : s'.subscriptions = s.subscriptions) : EachStored P s' := by
  have hget : s'.get = s.get :=
    funext fun id => congrArg (fun m : OrderedMap String CreditSubscription => m.get? id) hsame
  exact ⟨hget ▸ h.keyed, hget ▸ h.each⟩

variable {id : String}

/-- A stored subscription is found under its own id. -/
theorem EachStored.get_self (h : EachStored P s) (hget : s.get id = some subscription) :
    s.get subscription.id = some subscription := by
  rw [h.keyed id subscription hget, hget]

theorem EachStored.recordPeriod (h : EachStored P s) (id : String) (startsAt : Int)
    (period : PaidPeriod) : EachStored P (s.recordPeriod id startsAt period) := ⟨h.keyed, h.each⟩

variable {Q : CreditSubscription → MemoryCreditSubscriptionStore → Prop}
  {E : Thrown → MemoryCreditSubscriptionStore → Prop}

/-- `require` finds the subscription or throws. -/
theorem wp_requireSubscription :
    Wp (requireSubscription id) s Q E ↔ (∀ subscription, s.get id = some subscription →
      Q subscription s) ∧ (s.get id = none →
        E (.error ("Credit subscription " ++ id ++ " was not found.")) s) := by
  simp only [requireSubscription, wp_bind, wp_get]
  cases s.get id <;> simp

theorem wp_requireSubscription_of_get (hget : s.get id = some subscription) :
    Wp (requireSubscription id) s Q E ↔ Q subscription s := by
  rw [wp_requireSubscription, hget]
  simp

/-- Keeping a paid period records it or changes nothing. -/
theorem wp_keepPaidPeriod (startsAt : Int) (input : CreditSubscriptionPaidPeriodInput) :
    Wp (keepPaidPeriod startsAt input) s
      (fun _ s' => s' = s ∨ ∃ facts, s' = s.recordPeriod input.subscriptionId startsAt facts)
      (fun _ s' => s' = s) := by
  simp only [keepPaidPeriod, wp_bind, wp_get]
  cases s.paidPeriods.get? (input.subscriptionId, startsAt) with
  | some existing => exact wp_check.mpr ⟨fun _ _ => .inl rfl, fun _ _ => rfl⟩
  | none =>
    rw [wp_bind, wp_check]
    exact ⟨fun facts _ => (wp_modify _).mpr (.inr ⟨facts, rfl⟩), fun _ _ => rfl⟩

end Stored

section Upserts

variable (host : Host) {s : MemoryCreditSubscriptionStore}

theorem planOrdered_withChanges {subscription : CreditSubscription}
    {changes : List CreditSubscriptionScheduledChange} (h : ChangesOrdered changes)
    (hpaid : 0 ≤ subscription.paidThroughCycle) :
    PlanOrdered (subscription.withChanges changes) := ⟨h, rfl, rfl, rfl, hpaid⟩

theorem assertPaidThroughCycle_eq_ok {value : Int} :
    assertPaidThroughCycle value = .ok () ↔ 0 ≤ value := by
  rw [assertPaidThroughCycle]
  split <;> simp <;> omega

theorem assertSubscriptionInput_paidThrough {input : CreditSubscriptionInput} {u : Unit}
    (h : assertSubscriptionInput host input = .ok u) : 0 ≤ input.paidThroughCycle := by
  unfold assertSubscriptionInput at h
  obtain ⟨-, h⟩ := guard_eq_ok.mp h
  obtain ⟨_, -, h⟩ := bind_eq_ok.mp h
  obtain ⟨_, hpaid, -⟩ := bind_eq_ok.mp h
  exact assertPaidThroughCycle_eq_ok.mp hpaid

/-- What `upsert` stores, when it returns. -/
structure Upserted (s : MemoryCreditSubscriptionStore) (input : CreditSubscriptionInput)
    (subscription : CreditSubscription) : Prop where
  id : subscription.id = input.id
  workspaceId : subscription.workspaceId = input.workspaceId
  sameWorkspace : ∀ old, s.get input.id = some old → old.workspaceId = input.workspaceId
  plan : PlanOrdered subscription
  anchorAt : iso host input.anchorAt = .ok subscription.anchorAt
  paidThroughCycle : subscription.paidThroughCycle = input.paidThroughCycle
  status : subscription.status = input.status.getD .active
  grantCycleOffset : subscription.grantCycleOffset = input.grantCycleOffset.getD 0

/-- **`upsert` stores the subscription or leaves the store as it was.** -/
theorem wp_upsert (input : CreditSubscriptionInput) :
    Wp (upsert host input) s
      (fun subscription s' => s' = s.put subscription ∧ Upserted host s input subscription)
      (fun _ s' => s' = s) := by
  simp only [upsert, wp_bind, wp_check, wp_get, wp_ite, wp_throw, wp_pure, wp_modify]
  refine ⟨fun _ hinput => ⟨fun _ => trivial, fun hsame => ⟨fun changes hchanges => ?_,
    fun _ _ => trivial⟩⟩, fun _ _ => trivial⟩
  refine ⟨fun anchorAt hanchor => ⟨fun _ _ => ⟨fun _ _ => ⟨fun _ _ => ⟨fun _ _ => ⟨trivial, ?_⟩,
    fun _ _ => trivial⟩, fun _ _ => trivial⟩, fun _ _ => trivial⟩, fun _ _ => trivial⟩,
    fun _ _ => trivial⟩
  have hpaid := assertSubscriptionInput_paidThrough host hinput
  refine ⟨rfl, rfl, fun old hold => ?_, planOrdered_withChanges (changesOrdered_normalize hchanges)
    hpaid, hanchor, rfl, rfl, rfl⟩
  by_contra hne
  exact hsame (by rw [hold]; simpa using hne)

end Upserts

/-! ## The three writes -/

/-- A stored subscription rewritten: what identifies it stays, and so does a cancellation. -/
structure Amends (old subscription : CreditSubscription) : Prop where
  id : subscription.id = old.id
  workspaceId : subscription.workspaceId = old.workspaceId
  plan : PlanOrdered subscription
  tier : subscription.tier = old.tier
  interval : subscription.interval = old.interval
  anchorAt : subscription.anchorAt = old.anchorAt
  grantLineageId : subscription.grantLineageId = old.grantLineageId
  grantCycleOffset : subscription.grantCycleOffset = old.grantCycleOffset
  cancelled : old.status = .cancelled → subscription.status = .cancelled

/-- **One write of the store**, opening a subscription only if `opens`. -/
inductive StoreWrite (opens : Prop) (s : MemoryCreditSubscriptionStore) :
    MemoryCreditSubscriptionStore → Prop
  | amend {old subscription : CreditSubscription} (hget : s.get old.id = some old)
      (h : Amends old subscription) : StoreWrite opens s (s.put subscription)
  | opened {subscription : CreditSubscription} (hopens : opens) (h : PlanOrdered subscription) :
      StoreWrite opens s (s.put subscription)
  | period {id : String} {subscription : CreditSubscription} (hget : s.get id = some subscription)
      (startsAt : Int) (period : PaidPeriod) :
      StoreWrite opens s (s.recordPeriod id startsAt period)

/-- A status and its times changed: the plan stands. -/
theorem PlanOrdered.restated {subscription : CreditSubscription} (h : PlanOrdered subscription)
    (status : CreditSubscriptionStatus) (pastDueAt cancelledAt : Option Int) (updatedAt : Int) :
    PlanOrdered { subscription with status, pastDueAt, cancelledAt, updatedAt } :=
  ⟨h.1, h.2, h.3, h.4, h.5⟩

/-- A new status that keeps a cancellation, with its times. -/
theorem Amends.restated {subscription : CreditSubscription} (h : PlanOrdered subscription)
    {status : CreditSubscriptionStatus}
    (hstatus : subscription.status = .cancelled → status = .cancelled)
    (pastDueAt cancelledAt : Option Int) (updatedAt : Int) :
    Amends subscription { subscription with status, pastDueAt, cancelledAt, updatedAt } :=
  ⟨rfl, rfl, h.restated .., rfl, rfl, rfl, rfl, rfl, hstatus⟩

section Operations

variable (host : Host) {opens : Prop} {s : MemoryCreditSubscriptionStore}

theorem wp_touch {atTime : String} {ms : Int} (htime : iso host atTime = .ok ms)
    {subscription : CreditSubscription} {stamp : Int → CreditSubscription → CreditSubscription} :
    Wp (touch host subscription atTime stamp) s Q E ↔
      Q (stamp ms subscription) ((s.put subscription).put (stamp ms subscription)) := by
  simp [touch, htime]

/-- The two writes of `touch`. -/
theorem writes_touch {old subscription : CreditSubscription} {atTime : String}
    {stamp : Int → CreditSubscription → CreditSubscription} (hget : s.get old.id = some old)
    (h : Amends old subscription) (hstamp : ∀ ms, Amends subscription (stamp ms subscription)) :
    Writes (StoreWrite opens) (touch host subscription atTime stamp) s := by
  rw [writes_iff]
  simp only [touch, wp_bind, wp_modify, wp_check, wp_pure]
  have hput : StoreWrite opens s (s.put subscription) := .amend hget h
  refine ⟨fun ms _ => ?_, fun _ _ => .single hput⟩
  have hstored : (s.put subscription).get subscription.id = some subscription :=
    (get_put ..).trans (if_pos rfl)
  exact .tail (.single hput) (.amend hstored (hstamp ms))

variable (h : EachStored PlanOrdered s)

include h

theorem writes_recordPaidCoverage (id : String) (cycle : Int) (atTime : String) :
    Writes (StoreWrite opens) (recordPaidCoverage host id cycle atTime) s := by
  rw [writes_iff]
  simp only [recordPaidCoverage, wp_bind, wp_requireSubscription, wp_check, wp_ite, wp_throw]
  refine ⟨fun subscription hget => ⟨fun _ _ => ⟨fun _ => .refl, fun hlive => ?_⟩, fun _ _ => .refl⟩,
    fun _ => .refl⟩
  have hplan := h.each id subscription hget
  have hpaid : 0 ≤ max subscription.paidThroughCycle cycle := le_max_of_le_left hplan.paidThrough
  have hnew : Amends subscription { subscription with
      paidThroughCycle := max subscription.paidThroughCycle cycle
      status := .active
      pastDueAt := none } :=
    ⟨rfl, rfl, ⟨hplan.1, hplan.2, hplan.3, hplan.4, hpaid⟩, rfl, rfl, rfl, rfl, rfl,
      fun hc => absurd hc hlive⟩
  exact writes_iff.mp (writes_touch host (h.get_self hget) hnew fun ms =>
    .restated hnew.plan (fun hc => hc) ..)

theorem writes_recordPaidPeriod (input : CreditSubscriptionPaidPeriodInput) :
    Writes (StoreWrite opens) (recordPaidPeriod host input) s := by
  rw [writes_iff]
  simp only [recordPaidPeriod, wp_bind, wp_requireSubscription, wp_check, wp_ite, wp_throw, wp_get,
    wp_pure]
  refine ⟨fun subscription hget => ⟨fun startsAt _ => ⟨fun ms _ => ⟨fun _ _ => ⟨fun _ => .refl,
    fun _ => ⟨fun _ => .refl, fun _ => ?_⟩⟩, fun _ _ => .refl⟩, fun _ _ => .refl⟩,
    fun _ _ => .refl⟩, fun _ => .refl⟩
  cases s.paidPeriods.get? (input.subscriptionId, startsAt) with
  | some existing =>
    simp only [wp_bind, wp_check, wp_pure]
    exact ⟨fun _ _ => .refl, fun _ _ => .refl⟩
  | none =>
    simp only [wp_bind, wp_check, wp_pure, wp_modify, wp_get, wp_ite]
    refine ⟨fun facts _ => ?_, fun _ _ => .refl⟩
    have hperiod : StoreWrite opens s (s.recordPeriod input.subscriptionId startsAt facts) :=
      .period hget startsAt facts
    refine ⟨fun cycle _ => ⟨fun _ => .single hperiod, fun _ => ?_⟩, fun _ _ => .single hperiod⟩
    have hrest : Writes (StoreWrite opens) _ _ := writes_recordPaidCoverage host
      (h.recordPeriod input.subscriptionId startsAt facts) input.subscriptionId cycle (isoText ms)
    exact (writes_iff.mp hrest).mono (fun _ _ hc => .head hperiod hc) fun _ _ hc => .head hperiod hc

theorem writes_recordInitialPaidPeriod (input : CreditSubscriptionPaidPeriodInput) :
    Writes (StoreWrite opens) (recordInitialPaidPeriod host input) s := by
  rw [writes_iff]
  simp only [recordInitialPaidPeriod, wp_bind, wp_requireSubscription, wp_check, wp_get, wp_modify,
    wp_pure]
  refine ⟨fun subscription hget => ⟨fun startsAt _ => ⟨fun _ _ => ?_, fun _ _ => .refl⟩,
    fun _ _ => .refl⟩, fun _ => .refl⟩
  refine (wp_keepPaidPeriod startsAt input).mono (fun _ s' hs' => ?_) fun _ _ hs' => hs' ▸ .refl
  have hchain : ReflTransGen (StoreWrite opens) s s' := by
    obtain rfl | ⟨facts, rfl⟩ := hs'
    · exact .refl
    · exact .single (.period hget startsAt facts)
  have hstored : s'.get subscription.id = some subscription := by
    obtain rfl | ⟨facts, rfl⟩ := hs' <;> exact h.get_self hget
  refine ⟨fun cycle _ => hchain.tail (.amend hstored ?_), fun _ _ => hchain⟩
  have hplan := h.each _ subscription hget
  exact ⟨rfl, rfl, ⟨hplan.1, hplan.2, hplan.3, hplan.4, le_max_of_le_left hplan.paidThrough⟩,
    rfl, rfl, rfl, rfl, rfl, fun hc => hc⟩

omit h in
/-- The periods of one stored subscription, recorded for another. -/
theorem writes_foldl_recordPeriod {id : String} {subscription : CreditSubscription} :
    ∀ (periods : List (Int × PaidPeriod)) {s : MemoryCreditSubscriptionStore},
    s.get id = some subscription → ReflTransGen (StoreWrite opens) s
      (periods.foldl (fun s period => s.recordPeriod id period.1 period.2) s)
  | [], _, _ => .refl
  | period :: periods, s, hget =>
    .head (.period hget period.1 period.2)
      (writes_foldl_recordPeriod (s := s.recordPeriod id period.1 period.2) periods hget)

theorem writes_replaceSubscription (hopens : opens) (source target atTime : String) :
    Writes (StoreWrite opens) (replaceSubscription host source target atTime) s := by
  rw [writes_iff]
  simp only [replaceSubscription, wp_bind, wp_requireSubscription, wp_check, wp_ite, wp_throw,
    wp_get, wp_pure, wp_modify]
  refine ⟨fun subscription hget => ⟨fun _ => .refl, fun _ => ⟨fun ms _ => ?_, fun _ _ => .refl⟩⟩,
    fun _ => .refl⟩
  have hplan := h.each source subscription hget
  have hreplaced : Amends subscription (subscription.replaced ms) :=
    .restated hplan (fun _ => rfl) ..
  have hreplacement : PlanOrdered (subscription.replacement target ms) :=
    ⟨hplan.1, hplan.2, hplan.3, hplan.4, hplan.5⟩
  have hstored : ((s.put (subscription.replaced ms)).put (subscription.replacement target ms)).get
      target = some (subscription.replacement target ms) := (get_put ..).trans (if_pos rfl)
  refine .head (.amend (h.get_self hget) hreplaced) (.head (.opened hopens hreplacement) ?_)
  exact writes_foldl_recordPeriod _ hstored

omit h in
theorem writes_upsert (hopens : opens) (input : CreditSubscriptionInput) :
    Writes (StoreWrite opens) (upsert host input) s :=
  writes_iff.mpr ((wp_upsert host input).mono
    (fun _ _ hs => hs.1 ▸ .single (.opened hopens hs.2.plan)) fun _ _ hs => hs ▸ .refl)

theorem writes_resume (id atTime : String) :
    Writes (StoreWrite opens) (resume host id atTime) s := by
  rw [writes_iff]
  simp only [resume, wp_bind, wp_requireSubscription, wp_ite, wp_throw]
  refine ⟨fun subscription hget => ⟨fun _ => .refl, fun hlive => ?_⟩, fun _ => .refl⟩
  have hplan := h.each id subscription hget
  exact writes_iff.mp (writes_touch host (h.get_self hget)
    (.restated hplan (fun hc => absurd hc hlive) ..)
    fun _ => .restated (hplan.restated ..) (fun hc => hc) ..)

theorem writes_uncancel (id atTime : String) :
    Writes (StoreWrite opens) (uncancel host id atTime) s := by
  rw [writes_iff]
  simp only [uncancel, wp_bind, wp_requireSubscription, wp_ite, wp_throw]
  refine ⟨fun subscription hget => ⟨fun _ => .refl, fun hlive => ?_⟩, fun _ => .refl⟩
  have hplan : PlanOrdered (subscription.withChanges []) :=
    planOrdered_withChanges .nil (h.each id subscription hget).paidThrough
  have hnew : Amends subscription subscription.cleared :=
    ⟨rfl, rfl, hplan.restated .., rfl, rfl, rfl, rfl, rfl, fun hc => absurd hc hlive⟩
  exact writes_iff.mp (writes_touch host (h.get_self hget) hnew fun _ =>
    .restated (hplan.restated ..) (fun hc => hc) ..)

theorem writes_markPastDue (id atTime : String) :
    Writes (StoreWrite opens) (markPastDue host id atTime) s := by
  rw [writes_iff]
  simp only [markPastDue, wp_bind, wp_requireSubscription, wp_ite, wp_pure]
  refine ⟨fun subscription hget => ⟨fun hactive => ?_, fun _ => .refl⟩, fun _ => .refl⟩
  have hplan := h.each id subscription hget
  exact writes_iff.mp (writes_touch host (h.get_self hget)
    (.restated hplan (fun hc => absurd (hactive.symm.trans hc) (by rintro ⟨⟩)) ..)
    fun _ => .restated (hplan.restated ..) (fun hc => hc) ..)

theorem writes_cancelWhen (cancellable : CreditSubscriptionStatus → Bool) (id atTime : String) :
    Writes (StoreWrite opens) (cancelWhen host cancellable id atTime) s := by
  rw [writes_iff]
  simp only [cancelWhen, wp_bind, wp_requireSubscription, wp_ite, wp_pure]
  refine ⟨fun subscription hget => ⟨fun _ => ?_, fun _ => .refl⟩, fun _ => .refl⟩
  have hplan := h.each id subscription hget
  exact writes_iff.mp (writes_touch host (h.get_self hget) (.restated hplan (fun _ => rfl) ..)
    fun _ => .restated (hplan.restated ..) (fun hc => hc) ..)

theorem writes_scheduleChange (id : String) (change : CreditSubscriptionScheduledChange)
    (atTime : String) : Writes (StoreWrite opens) (scheduleChange host id change atTime) s := by
  rw [writes_iff]
  simp only [scheduleChange, wp_bind, wp_requireSubscription, wp_check, wp_ite, wp_throw]
  refine ⟨fun _ _ => ⟨fun subscription hget => ⟨fun _ => .refl, fun hlive => ⟨fun changes hchanges =>
    ?_, fun _ _ => .refl⟩⟩, fun _ => .refl⟩, fun _ _ => .refl⟩
  have hplan : PlanOrdered (subscription.withChanges changes) := planOrdered_withChanges
    (changesOrdered_normalize hchanges) (h.each id subscription hget).paidThrough
  have hnew : Amends subscription (subscription.withChanges changes) :=
    ⟨rfl, rfl, hplan, rfl, rfl, rfl, rfl, rfl, fun hc => hc⟩
  exact writes_iff.mp (writes_touch host (h.get_self hget) hnew fun _ =>
    .restated hplan (fun hc => hc) ..)

end Operations

/-! ## Every call -/

/-- The calls that may bring a subscription to life. -/
def StoreCall.opens : StoreCall → Bool
  | .upsert _ | .replaceSubscription _ _ _ => true
  | _ => false

section Runs

variable (host : Host) {s : MemoryCreditSubscriptionStore}

/-- **Every call is a chain of writes**, opening only if it is an opening one. -/
theorem chain_storeCall (h : EachStored PlanOrdered s) (call : StoreCall) :
    ReflTransGen (StoreWrite (call.opens = true)) s (StoreCall.step host s call) := by
  refine Writes.final ?_
  cases call with
  | upsert => exact writes_upsert host rfl ..
  | recordPaidCoverage => exact writes_recordPaidCoverage host h ..
  | recordPaidPeriod => exact writes_recordPaidPeriod host h ..
  | recordInitialPaidPeriod => exact writes_recordInitialPaidPeriod host h ..
  | replaceSubscription => exact writes_replaceSubscription host h rfl ..
  | resume => exact writes_resume host h ..
  | uncancel => exact writes_uncancel host h ..
  | markPastDue => exact writes_markPastDue host h ..
  | cancelPastDue id atTime => exact writes_cancelWhen host h (· = .past_due) id atTime
  | cancel id atTime => exact writes_cancelWhen host h (· ≠ .cancelled) id atTime
  | scheduleChange => exact writes_scheduleChange host h ..

/-- **Every call leaves the stored plans in order.** -/
theorem plansOrdered_step (h : EachStored PlanOrdered s) (call : StoreCall) :
    EachStored PlanOrdered (StoreCall.step host s call) := by
  refine chain_invariant (EachStored PlanOrdered) (fun s s' hwrite hs => ?_)
    (chain_storeCall host h call) h
  cases hwrite with
  | amend _ h => exact hs.put h.plan
  | opened _ h => exact hs.put h
  | period => exact hs.recordPeriod ..

/-- **The stored plans are in order after every run.** -/
theorem plansOrdered_run (calls : List StoreCall) : EachStored PlanOrdered (runStore host calls) :=
  runAll_invariant (EachStored PlanOrdered) (fun _ call h => plansOrdered_step host h call) calls
    .empty

/-- **What is stored stays stored.** -/
theorem isSome_get_step (h : EachStored PlanOrdered s) (call : StoreCall) {id : String}
    (hid : (s.get id).isSome = true) : ((StoreCall.step host s call).get id).isSome = true := by
  refine chain_invariant (fun s => (s.get id).isSome = true) (fun s s' hwrite hs => ?_)
    (chain_storeCall host h call) hid
  cases hwrite with
  | period => exact hs
  | _ =>
    rw [get_put]
    split
    · rfl
    · exact hs

/-- A recorded period belongs to a stored subscription. -/
def PeriodsOwned (s : MemoryCreditSubscriptionStore) : Prop :=
  ∀ id startsAt period, s.paidPeriods.get? (id, startsAt) = some period → (s.get id).isSome

theorem PeriodsOwned.put (h : PeriodsOwned s) (subscription : CreditSubscription) :
    PeriodsOwned (s.put subscription) := by
  intro id startsAt period hperiod
  rw [get_put]
  split
  · rfl
  · exact h id startsAt period hperiod

theorem periodsOwned_step (h : EachStored PlanOrdered s) (howned : PeriodsOwned s)
    (call : StoreCall) : PeriodsOwned (StoreCall.step host s call) := by
  refine chain_invariant PeriodsOwned (fun s s' hwrite hs => ?_) (chain_storeCall host h call) howned
  cases hwrite with
  | amend => exact hs.put _
  | opened => exact hs.put _
  | @period id subscription hget startsAt period =>
    intro other start found hfound
    change (s.paidPeriods.set (id, startsAt) period).get? (other, start) = some found at hfound
    rw [OrderedMap.get?_set] at hfound
    split at hfound
    · next hkey =>
      obtain rfl := (Prod.mk.inj hkey).1
      exact Option.isSome_iff_exists.mpr ⟨subscription, hget⟩
    · exact hs other start found hfound

end Runs

end MeiyeAgent
