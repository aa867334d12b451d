import MeiyeAgent.CreditBilling.ScheduledChanges

/-!
# CreditBilling/StoreFailures — when the store's operations throw, and what they have written by then

On a stored subscription that is live, with the clock's own time, most operations cannot throw once
they write.  Two can:

* A period is refused before anything is written when its facts **conflict** with those recorded for
  its start.  A new period is written first and counted after, so when the calendar cannot name the
  cycle of some recorded period (`Overruns`) the call throws with the period recorded.
* `upsert` throws before it writes; what it then opens may still be refused its first period.
-/

namespace MeiyeAgent

open Effect

variable (host : Host) {s : MemoryCreditSubscriptionStore}

/-! ## Paid periods that are refused -/

/-- Other facts are recorded for the start. -/
def Conflicts (s : MemoryCreditSubscriptionStore) (id : String) (startsAt : Int)
    (facts : PaidPeriod) : Prop :=
  ∃ existing, s.paidPeriods.get? (id, startsAt) = some existing ∧ existing ≠ facts

/-- The periods of a subscription once the period is recorded. -/
def periodsWith (s : MemoryCreditSubscriptionStore) (id : String) (startsAt : Int)
    (facts : PaidPeriod) : List (Int × PaidPeriod) :=
  if (s.paidPeriods.get? (id, startsAt)).isNone then s.periodsOf id ++ [(startsAt, facts)]
  else s.periodsOf id

/-- With the period, the paid cycles cannot be counted. -/
def Miscounts (s : MemoryCreditSubscriptionStore) (id : String) (anchorAt startsAt : Int)
    (facts : PaidPeriod) : Prop :=
  ∃ e, contiguousPaidThroughCycle anchorAt (periodsWith s id startsAt facts) = .error e

/-- The period is new, and with it the paid cycles cannot be counted. -/
def Overruns (s : MemoryCreditSubscriptionStore) (id : String) (anchorAt startsAt : Int)
    (facts : PaidPeriod) : Prop :=
  s.paidPeriods.get? (id, startsAt) = none ∧ Miscounts s id anchorAt startsAt facts

theorem periodsOf_recordPeriod {id : String} {startsAt : Int} {facts : PaidPeriod}
    (hnew : s.paidPeriods.get? (id, startsAt) = none) :
    (s.recordPeriod id startsAt facts).periodsOf id = s.periodsOf id ++ [(startsAt, facts)] := by
  rw [MemoryCreditSubscriptionStore.periodsOf, MemoryCreditSubscriptionStore.recordPeriod,
    OrderedMap.entries_set_of_none hnew, List.filter_append, List.map_append]
  simp [MemoryCreditSubscriptionStore.periodsOf]

theorem assertPaidPeriodFacts_eq_ok {input : CreditSubscriptionPaidPeriodInput}
    {existing facts : PaidPeriod} (hfacts : paidPeriodFacts input = .ok facts) :
    assertPaidPeriodFacts existing input = .ok () ↔ existing = facts := by
  rw [assertPaidPeriodFacts, bind_eq_ok]
  constructor
  · rintro ⟨incoming, hincoming, hsame⟩
    obtain rfl := Except.ok.inj (hfacts.symm.trans hincoming)
    obtain ⟨existingCoverage, existingCycles⟩ := existing
    obtain ⟨coverage, cycles⟩ := facts
    simpa [and_comm] using last_guard_eq_ok.mp hsame
  · rintro rfl
    exact ⟨existing, hfacts, last_guard_eq_ok.mpr (by simp)⟩

theorem paidPeriodFacts_coverageCycles {input : CreditSubscriptionPaidPeriodInput}
    {facts : PaidPeriod} (hfacts : paidPeriodFacts input = .ok facts) :
    assertCoverageCycles input.coverageCycles = .ok () :=
  have ⟨(), hcycles, _⟩ := bind_eq_ok.mp hfacts
  hcycles

/-- An error condition on what is not an error. -/
theorem forall_error_iff {ε α : Type} {r : Except ε α} {P : Prop} :
    (∀ e, r = .error e → P) ↔ ((∃ e, r = .error e) → P) :=
  ⟨fun h ⟨e, he⟩ => h e he, fun h e he => h ⟨e, he⟩⟩

theorem exists_error_iff {ε : Type} {r : Except ε Unit} : (∃ e, r = .error e) ↔ ¬ r = .ok () := by
  cases r <;> simp

/-! ## Recording a period -/

/-- The id stores a live subscription, the one returned. -/
def StoredLive (id : String) (subscription : CreditSubscription)
    (s : MemoryCreditSubscriptionStore) : Prop :=
  s.get id = some subscription ∧ subscription.id = id ∧ subscription.status ≠ .cancelled

theorem get_put_self {subscription : CreditSubscription} {id : String}
    (hid : subscription.id = id) : (s.put subscription).get id = some subscription :=
  (get_put ..).trans (if_pos hid.symm)

/-- **Extending the paid cycles never fails**: the subscription is live, the cycle later. -/
theorem wp_recordPaidCoverage {id : String} {subscription : CreditSubscription}
    (hstored : StoredLive id subscription s) {cycle : Int} (hcycle : 0 ≤ cycle) {atTime : String}
    {now : Int} (hnow : iso host atTime = .ok now) :
    Wp (recordPaidCoverage host id cycle atTime) s (StoredLive id) (fun _ _ => False) := by
  obtain ⟨hget, hid, hlive⟩ := hstored
  simp only [recordPaidCoverage, wp_bind, wp_requireSubscription_of_get hget, wp_check, wp_ite,
    wp_throw, wp_touch host hnow]
  exact ⟨fun _ _ => ⟨fun hcancelled => hlive hcancelled, fun _ => ⟨get_put_self hid, hid,
    by rintro ⟨⟩⟩⟩,
    fun e he => absurd (he.symm.trans (assertPaidThroughCycle_eq_ok.mpr hcycle)) (by simp)⟩

section PaidPeriod

variable {input : CreditSubscriptionPaidPeriodInput} {subscription : CreditSubscription}
  {now : TimeValue} {startsAt : Int} {facts : PaidPeriod}

/-- **How `recordPaidPeriod` fails** for a live subscription and a readable start: a period that has
begun is refused with nothing written, or recorded and not counted. -/
theorem wp_recordPaidPeriod (h : EachStored PlanOrdered s)
    (hstored : StoredLive input.subscriptionId subscription s)
    (hstart : iso host input.periodStartsAt = .ok startsAt)
    (hnow : input.atTime = isoText now) (hfacts : paidPeriodFacts input = .ok facts)
    (P : MemoryCreditSubscriptionStore → Prop) :
    Wp (recordPaidPeriod host input) s (StoredLive input.subscriptionId) (fun _ => P) ↔
      (isoTextAfter startsAt now = false →
        (Conflicts s input.subscriptionId startsAt facts → P s) ∧
        (Overruns s input.subscriptionId subscription.anchorAt startsAt facts →
          P (s.recordPeriod input.subscriptionId startsAt facts))) := by
  have ⟨hget, hid, hlive⟩ := hstored
  have hnow' : iso host input.atTime = .ok now.val := hnow ▸ iso_isoText host now
  have hcycles := paidPeriodFacts_coverageCycles hfacts
  rw [recordPaidPeriod, wp_bind, wp_requireSubscription_of_get hget, wp_bind, wp_check_ok hstart,
    wp_bind, wp_check_ok hnow', wp_bind, wp_check_ok hcycles, wp_ite]
  simp only [hlive, false_implies, not_false_eq_true, true_implies, true_and, wp_ite, wp_bind,
    wp_get, wp_pure, Bool.not_eq_true, hstored, implies_true]
  refine imp_congr_right fun _ => ?_
  cases hperiod : s.paidPeriods.get? (input.subscriptionId, startsAt) with
  | some existing =>
    simp only [wp_bind, wp_check, wp_pure, hstored, implies_true, true_and, forall_error_iff,
      exists_error_iff, assertPaidPeriodFacts_eq_ok hfacts, Conflicts, Overruns, hperiod]
    simp
  | none =>
    have hcounted : (s.recordPeriod input.subscriptionId startsAt facts).periodsOf
        input.subscriptionId = s.periodsOf input.subscriptionId ++ [(startsAt, facts)] :=
      periodsOf_recordPeriod hperiod
    have hkept : StoredLive input.subscriptionId subscription
        (s.recordPeriod input.subscriptionId startsAt facts) := hstored
    have hextend : ∀ cycle, subscription.paidThroughCycle < cycle →
        Wp (recordPaidCoverage host input.subscriptionId cycle (isoText now))
          (s.recordPeriod input.subscriptionId startsAt facts) (StoredLive input.subscriptionId)
          (fun _ => P) := by
      intro cycle hcycle
      have hpaid := (h.each _ _ hget).paidThrough
      have hnonneg : 0 ≤ cycle := by omega
      exact (wp_recordPaidCoverage host hkept hnonneg (iso_isoText host now)).mono
        (fun _ _ hs => hs) fun _ _ hfalse => hfalse.elim
    simp only [wp_bind, wp_check_ok hfacts, wp_modify, wp_get, hid, hcounted, wp_check, wp_ite,
      wp_pure, hkept, Conflicts, Overruns, Miscounts, periodsWith, hperiod, forall_error_iff]
    simp +contextual [hextend]

/-- The subscription returned is the one stored, still live. -/
theorem recordPaidPeriod_live (h : EachStored PlanOrdered s)
    (hstored : StoredLive input.subscriptionId subscription s) (hnow : input.atTime = isoText now)
    (hfacts : paidPeriodFacts input = .ok facts) :
    Wp (recordPaidPeriod host input) s (StoredLive input.subscriptionId) (fun _ _ => True) := by
  cases hstart : iso host input.periodStartsAt with
  | error e => simp [recordPaidPeriod, wp_requireSubscription_of_get hstored.1, hstart]
  | ok startsAt =>
    exact (wp_recordPaidPeriod host h hstored hstart hnow hfacts fun _ => True).mpr
      fun _ => ⟨fun _ => trivial, fun _ => trivial⟩

/-- Recording the period throws, and leaves it recorded. -/
def StopsPaying (s : MemoryCreditSubscriptionStore) (subscription : CreditSubscription)
    (periodStartsAt : String) (now : Int) (facts : PaidPeriod) : Prop :=
  subscription.status ≠ .cancelled ∧ ∃ startsAt, iso host periodStartsAt = .ok startsAt ∧
    isoTextAfter startsAt now = false ∧
    Overruns s subscription.id subscription.anchorAt startsAt facts

/-- A period recorded shows in the store. -/
theorem recordPeriod_ne {id : String} (hnew : s.paidPeriods.get? (id, startsAt) = none) :
    s.recordPeriod id startsAt facts ≠ s := by
  intro hsame
  have hget : (s.recordPeriod id startsAt facts).paidPeriods.get? (id, startsAt) = some facts :=
    (OrderedMap.get?_set ..).trans (if_pos rfl)
  rw [hsame, hnew] at hget
  exact absurd hget (by simp)

/-- **`recordPaidPeriod` is atomic** except where it stops with the period recorded. -/
theorem atomic_recordPaidPeriod (h : EachStored PlanOrdered s)
    (hget : s.get input.subscriptionId = some subscription) (hnow : input.atTime = isoText now)
    (hfacts : paidPeriodFacts input = .ok facts) :
    Atomic (recordPaidPeriod host input) s ↔
      ¬ StopsPaying host s subscription input.periodStartsAt now facts := by
  have hid := h.keyed _ _ hget
  by_cases hlive : subscription.status = .cancelled
  · simp only [Atomic, recordPaidPeriod, wp_bind, wp_requireSubscription_of_get hget, wp_check,
      wp_ite, wp_throw, hlive, StopsPaying]
    simp
  cases hstart : iso host input.periodStartsAt with
  | error e =>
    simp only [Atomic, recordPaidPeriod, wp_bind, wp_requireSubscription_of_get hget, wp_check,
      hstart, StopsPaying]
    simp
  | ok startsAt =>
    have hfails := wp_recordPaidPeriod host h ⟨hget, hid, hlive⟩ hstart hnow hfacts (· = s)
    have hatomic : Atomic (recordPaidPeriod host input) s ↔
        Wp (recordPaidPeriod host input) s (StoredLive input.subscriptionId) (fun _ => (· = s)) := by
      refine ⟨fun ha => ?_, fun ha => ha.mono (fun _ _ _ => trivial) fun _ _ hs => hs⟩
      have hpaid := recordPaidPeriod_live host h ⟨hget, hid, hlive⟩ hnow hfacts
      exact (hpaid.and ha).mono (fun _ _ hs => hs.1) fun _ _ hs => hs.2
    rw [hatomic, hfails, StopsPaying, hstart]
    simp only [implies_true, true_and, hid, hlive, ne_eq, not_false_eq_true, Except.ok.injEq,
      exists_eq_left', not_and]
    refine imp_congr_right fun _ => ⟨fun hs hover => ?_, fun hover hs => absurd hs hover⟩
    exact recordPeriod_ne hover.1 (hs hover)

/-- **How `recordInitialPaidPeriod` fails**: whatever it has written by then, the subscriptions are as
they were. -/
theorem wp_recordInitialPaidPeriod (hget : s.get input.subscriptionId = some subscription)
    (hid : subscription.id = input.subscriptionId)
    (hstart : iso host input.periodStartsAt = .ok startsAt)
    (hfacts : paidPeriodFacts input = .ok facts) {P : MemoryCreditSubscriptionStore → Prop}
    (hP : ∀ s', s'.get = s.get → ¬ P s') :
    Wp (recordInitialPaidPeriod host input) s (fun _ _ => True) (fun _ => P) ↔
      ¬ Conflicts s input.subscriptionId startsAt facts ∧
        ¬ Miscounts s input.subscriptionId subscription.anchorAt startsAt facts := by
  have hcycles := paidPeriodFacts_coverageCycles hfacts
  have hs : ¬ P s := hP s rfl
  have hrecorded : ¬ P (s.recordPeriod input.subscriptionId startsAt facts) := hP _ rfl
  simp only [recordInitialPaidPeriod, wp_bind, wp_requireSubscription_of_get hget,
    wp_check_ok hstart, wp_check_ok hcycles, keepPaidPeriod, wp_get]
  cases hperiod : s.paidPeriods.get? (input.subscriptionId, startsAt) with
  | some existing =>
    simp only [wp_check, wp_modify, wp_pure, forall_error_iff, exists_error_iff,
      assertPaidPeriodFacts_eq_ok hfacts, Conflicts, Miscounts, periodsWith, hperiod, hid]
    simp [hs]
    tauto
  | none =>
    have hcounted : (s.recordPeriod input.subscriptionId startsAt facts).periodsOf
        input.subscriptionId = s.periodsOf input.subscriptionId ++ [(startsAt, facts)] :=
      periodsOf_recordPeriod hperiod
    simp only [wp_bind, wp_check_ok hfacts, wp_modify, hid, hcounted, wp_check, wp_pure,
      Conflicts, Miscounts, periodsWith, hperiod, forall_error_iff]
    simp [hrecorded]

end PaidPeriod

/-! ## Operations that cannot throw half-way -/

section Stamped

variable {id atTime : String} {now : Int} (hnow : iso host atTime = .ok now)

include hnow

theorem atomic_uncancel : Atomic (uncancel host id atTime) s := by
  simp [Atomic, uncancel, wp_requireSubscription, wp_touch host hnow]

theorem atomic_markPastDue : Atomic (markPastDue host id atTime) s := by
  simp [Atomic, markPastDue, wp_requireSubscription, wp_touch host hnow]

theorem atomic_cancelWhen (cancellable : CreditSubscriptionStatus → Bool) :
    Atomic (cancelWhen host cancellable id atTime) s := by
  simp [Atomic, cancelWhen, wp_requireSubscription, wp_touch host hnow]

theorem atomic_scheduleChange (change : CreditSubscriptionScheduledChange) :
    Atomic (scheduleChange host id change atTime) s := by
  simp [Atomic, scheduleChange, wp_requireSubscription, wp_touch host hnow]

/-- A live subscription resumes. -/
theorem wp_resume {subscription : CreditSubscription} (hstored : StoredLive id subscription s) :
    Wp (resume host id atTime) s (fun _ _ => True) (fun _ _ => False) := by
  simp only [resume, wp_bind, wp_requireSubscription_of_get hstored.1, wp_ite, wp_throw,
    wp_touch host hnow]
  exact ⟨hstored.2.2, fun _ => trivial⟩

end Stamped

/-! ## Taking a subscription over -/

section TakeOver

variable {id : String} {startsAt : Int}

/-- The periods of a subscription are what is recorded under its id. -/
theorem mem_periodsOf {period : PaidPeriod} :
    (startsAt, period) ∈ s.periodsOf id ↔ s.paidPeriods.get? (id, startsAt) = some period := by
  rw [MemoryCreditSubscriptionStore.periodsOf, OrderedMap.get?_eq_some, List.mem_map]
  constructor
  · rintro ⟨⟨⟨other, start⟩, found⟩, hmem, heq⟩
    obtain ⟨hentry, hid⟩ := List.mem_filter.mp hmem
    obtain rfl : other = id := of_decide_eq_true hid
    obtain ⟨rfl, rfl⟩ := Prod.mk.inj heq
    exact hentry
  · exact fun hentry => ⟨_, List.mem_filter.mpr ⟨hentry, decide_eq_true rfl⟩, rfl⟩

variable {s' : MemoryCreditSubscriptionStore} {id' : String}

/-- Subscriptions with the same periods have the same period at each start. -/
theorem get?_congr_periodsOf (h : s'.periodsOf id' = s.periodsOf id) (startsAt : Int) :
    s'.paidPeriods.get? (id', startsAt) = s.paidPeriods.get? (id, startsAt) := by
  ext period
  rw [← mem_periodsOf, h, mem_periodsOf]

variable {facts : PaidPeriod}

theorem conflicts_congr (h : s'.periodsOf id' = s.periodsOf id) :
    Conflicts s' id' startsAt facts ↔ Conflicts s id startsAt facts := by
  rw [Conflicts, get?_congr_periodsOf h, Conflicts]

theorem miscounts_congr (h : s'.periodsOf id' = s.periodsOf id) {anchorAt : Int} :
    Miscounts s' id' anchorAt startsAt facts ↔ Miscounts s id anchorAt startsAt facts := by
  rw [Miscounts, periodsWith, get?_congr_periodsOf h, h, Miscounts, periodsWith]

theorem overruns_congr (h : s'.periodsOf id' = s.periodsOf id) {anchorAt : Int} :
    Overruns s' id' anchorAt startsAt facts ↔ Overruns s id anchorAt startsAt facts := by
  rw [Overruns, get?_congr_periodsOf h, miscounts_congr h, Overruns]

theorem nodup_periodsOf (s : MemoryCreditSubscriptionStore) (id : String) :
    ((s.periodsOf id).map Prod.fst).Nodup := by
  rw [MemoryCreditSubscriptionStore.periodsOf, List.map_map]
  refine List.Nodup.map_on (fun x hx y hy hstart => ?_) (s.paidPeriods.nodup.of_map.filter _)
  obtain ⟨hx, hxid⟩ := List.mem_filter.mp hx
  obtain ⟨hy, hyid⟩ := List.mem_filter.mp hy
  refine OrderedMap.entry_unique hx hy (Prod.ext ?_ hstart)
  exact (of_decide_eq_true hxid).trans (of_decide_eq_true hyid).symm

/-- Distinct new periods recorded in turn are appended. -/
theorem periodsOf_foldl {id : String} : ∀ (periods : List (Int × PaidPeriod))
    {s : MemoryCreditSubscriptionStore}, (periods.map Prod.fst).Nodup →
    (∀ period ∈ periods, s.paidPeriods.get? (id, period.1) = none) →
    (periods.foldl (fun s period => s.recordPeriod id period.1 period.2) s).periodsOf id =
      s.periodsOf id ++ periods
  | [], _, _, _ => (List.append_nil _).symm
  | period :: periods, s, hnodup, hnew => by
    obtain ⟨hperiod, hnodup⟩ := List.nodup_cons.mp hnodup
    obtain ⟨hfirst, hrest⟩ := List.forall_mem_cons.mp hnew
    rw [List.foldl_cons, periodsOf_foldl periods hnodup fun other hother => ?_,
      periodsOf_recordPeriod hfirst, List.append_assoc, List.singleton_append]
    have hne : (id, other.1) ≠ (id, period.1) := fun heq =>
      hperiod ((Prod.mk.inj heq).2 ▸ List.mem_map_of_mem hother)
    exact (OrderedMap.get?_set_ne hne).trans (hrest other hother)

theorem get_foldl_recordPeriod {id : String} : ∀ (periods : List (Int × PaidPeriod))
    {s : MemoryCreditSubscriptionStore},
    (periods.foldl (fun s period => s.recordPeriod id period.1 period.2) s).get = s.get
  | [], _ => rfl
  | _ :: periods, _ => get_foldl_recordPeriod periods

/-- The store with the source taken over by the target, its periods and all. -/
def MemoryCreditSubscriptionStore.takenOver (s : MemoryCreditSubscriptionStore)
    (source : CreditSubscription) (target : String) (ms : Int) : MemoryCreditSubscriptionStore :=
  (s.periodsOf source.id).foldl (fun s period => s.recordPeriod target period.1 period.2)
    ((s.put (source.replaced ms)).put (source.replacement target ms))

variable {source : CreditSubscription} {target : String} {ms : Int}

theorem wp_replaceSubscription (hget : s.get source.id = some source) {atTime : String}
    (hnow : iso host atTime = .ok ms)
    {Q : CreditSubscription → MemoryCreditSubscriptionStore → Prop}
    {E : Thrown → MemoryCreditSubscriptionStore → Prop} :
    Wp (replaceSubscription host source.id target atTime) s Q E ↔
      ((s.get target).isSome = true → E (.domain .IDEMPOTENCY_CONFLICT
        ("Credit subscription " ++ target ++ " already exists.")) s) ∧
      (s.get target = none →
        Q (source.replacement target ms) (s.takenOver source target ms)) := by
  simp only [replaceSubscription, wp_bind, wp_requireSubscription_of_get hget, wp_get, wp_ite,
    wp_throw, wp_check_ok hnow, wp_modify, wp_pure, Option.not_isSome_iff_eq_none]
  rfl

theorem get_takenOver (id : String) :
    (s.takenOver source target ms).get id =
      ((s.put (source.replaced ms)).put (source.replacement target ms)).get id := by
  rw [MemoryCreditSubscriptionStore.takenOver, get_foldl_recordPeriod]

/-- **The target has the periods of the source.** -/
theorem periodsOf_takenOver (howned : PeriodsOwned s) (habsent : s.get target = none) :
    (s.takenOver source target ms).periodsOf target = s.periodsOf source.id := by
  have hnone : ∀ startsAt, s.paidPeriods.get? (target, startsAt) = none := by
    intro startsAt
    by_contra hsome
    obtain ⟨period, hperiod⟩ := Option.ne_none_iff_exists'.mp hsome
    have hstored := howned target startsAt period hperiod
    rw [habsent] at hstored
    exact absurd hstored (by simp)
  have hempty : s.periodsOf target = [] := by
    refine List.eq_nil_iff_forall_not_mem.mpr fun period hmem => ?_
    have hperiod := mem_periodsOf.mp hmem
    rw [hnone] at hperiod
    exact absurd hperiod (by simp)
  have hfold : (s.takenOver source target ms).periodsOf target =
      s.periodsOf target ++ s.periodsOf source.id :=
    periodsOf_foldl (s.periodsOf source.id) (nodup_periodsOf s source.id) fun _ _ => hnone _
  rw [hfold, hempty, List.nil_append]

theorem eachStored_takenOver (h : EachStored PlanOrdered s) (hplan : PlanOrdered source) :
    EachStored PlanOrdered (s.takenOver source target ms) := by
  have hput : EachStored PlanOrdered
      ((s.put (source.replaced ms)).put (source.replacement target ms)) :=
    (h.put (hplan.restated ..)).put ⟨hplan.1, hplan.2, hplan.3, hplan.4, hplan.5⟩
  have hget : (s.takenOver source target ms).get = _ := get_foldl_recordPeriod _
  exact ⟨hget ▸ hput.keyed, hget ▸ hput.each⟩

end TakeOver

end MeiyeAgent
