import MeiyeAgent.CreditBilling.SettlementWrites

/-!
# CreditBilling/OneLive — one live subscription per workspace

A subscription is **live** while it is not cancelled.  Only two calls of the store bring one to
life, `upsert` and `replaceSubscription`; every other call leaves at most the live ones there were
(`Shrinks`).

* `oneLive_run` — settlements keep one live subscription per workspace, in every run in which no
  activation upgrades a **cancelled** subscription beside a live one.
* The upgrade branch cancels the subscription the event names and opens that id anew; when the id
  was cancelled already, the workspace's live subscription stays live beside it.
-/

namespace MeiyeAgent

open Effect

/-! ## Live subscriptions -/

/-- A live subscription of the workspace is stored under the id. -/
def MemoryCreditSubscriptionStore.LiveIn (s : MemoryCreditSubscriptionStore) (workspaceId : String)
    (id : String) : Prop :=
  ∃ subscription, s.get id = some subscription ∧ subscription.workspaceId = workspaceId ∧
    subscription.status ≠ .cancelled

/-- No live subscription of the workspace is stored under another id. -/
def AloneIn (s : MemoryCreditSubscriptionStore) (workspaceId id : String) : Prop :=
  ∀ other, s.LiveIn workspaceId other → other = id

/-- **One live subscription per workspace.** -/
structure OneLive (s : MemoryCreditSubscriptionStore) : Prop where
  stored : EachStored PlanOrdered s
  alone : ∀ workspaceId id, s.LiveIn workspaceId id → AloneIn s workspaceId id

/-- Whatever is live in `s'` was live in `s`. -/
def Shrinks (s s' : MemoryCreditSubscriptionStore) : Prop :=
  ∀ workspaceId id, s'.LiveIn workspaceId id → s.LiveIn workspaceId id

variable {s s' s'' : MemoryCreditSubscriptionStore}

theorem Shrinks.refl : Shrinks s s := fun _ _ h => h

theorem Shrinks.trans (h : Shrinks s s') (h' : Shrinks s' s'') : Shrinks s s'' :=
  fun workspaceId id hlive => h workspaceId id (h' workspaceId id hlive)

theorem Shrinks.of_get (h : s'.get = s.get) : Shrinks s s' := fun _ _ hlive => by
  rwa [MemoryCreditSubscriptionStore.LiveIn, h] at hlive

/-- A stored subscription rewritten without bringing it to life. -/
theorem Shrinks.put {old subscription : CreditSubscription} (hget : s.get subscription.id = some old)
    (hworkspace : subscription.workspaceId = old.workspaceId)
    (hstatus : old.status = .cancelled → subscription.status = .cancelled) :
    Shrinks s (s.put subscription) := by
  rintro workspaceId id ⟨found, hfound, rfl, hlive⟩
  rw [get_put] at hfound
  split at hfound
  · next hid =>
    obtain rfl := Option.some.inj hfound
    exact ⟨old, hid ▸ hget, hworkspace.symm, fun hcancelled => hlive (hstatus hcancelled)⟩
  · exact ⟨found, hfound, rfl, hlive⟩

variable {workspaceId id : String}

theorem AloneIn.of_shrinks (h : AloneIn s workspaceId id) (hs : Shrinks s s') :
    AloneIn s' workspaceId id := fun other hlive => h other (hs _ _ hlive)

theorem OneLive.of_shrinks (h : OneLive s) (hs : Shrinks s s') (hstored : EachStored PlanOrdered s') :
    OneLive s' :=
  ⟨hstored, fun workspaceId id hlive => (h.alone workspaceId id (hs _ _ hlive)).of_shrinks hs⟩

theorem OneLive.empty : OneLive .empty :=
  ⟨.empty, fun _ _ ⟨_, hget, _⟩ => absurd hget (by simp)⟩

theorem OneLive.of_get (h : OneLive s) (hget : s'.get = s.get) : OneLive s' :=
  h.of_shrinks (.of_get hget) ⟨hget ▸ h.stored.keyed, hget ▸ h.stored.each⟩

theorem oneLive_foldl_recordPeriod (id : String) : ∀ (periods : List (Int × PaidPeriod))
    {s : MemoryCreditSubscriptionStore}, OneLive s →
    OneLive (periods.foldl (fun s period => s.recordPeriod id period.1 period.2) s)
  | [], _, h => h
  | _ :: periods, _, h => oneLive_foldl_recordPeriod id periods (h.of_get rfl)

/-! ## Calls that bring nothing to life -/

section Calls

variable (host : Host)

/-- **A write that opens nothing brings nothing to life.** -/
theorem shrinks_write (h : StoreWrite False s s') : Shrinks s s' := by
  cases h with
  | amend hget hamends => exact .put (hamends.id ▸ hget) hamends.workspaceId hamends.cancelled
  | opened hopens => exact absurd hopens not_false
  | period => exact .of_get rfl

theorem shrinks_step (h : EachStored PlanOrdered s) (call : StoreCall)
    (hopens : call.opens = false) : Shrinks s (StoreCall.step host s call) := by
  have hchain := chain_storeCall host h call
  rw [hopens, eq_false Bool.false_ne_true] at hchain
  exact chain_invariant (Shrinks s) (fun _ _ hwrite hs => hs.trans (shrinks_write hwrite)) hchain
    .refl

theorem oneLive_perform (h : OneLive s) (call : StoreCall) (hopens : call.opens = false) :
    Keeps OneLive (call.perform host) s :=
  wp_final.mpr (h.of_shrinks (shrinks_step host h.stored call hopens)
    (plansOrdered_step host h.stored call))

/-! ## Calls that open a subscription -/

/-- **Opening an id that is alone in its workspace** keeps one live subscription per workspace. -/
theorem OneLive.put (h : OneLive s) {subscription : CreditSubscription}
    (hplan : PlanOrdered subscription)
    (halone : AloneIn s subscription.workspaceId subscription.id) :
    OneLive (s.put subscription) := by
  refine ⟨h.stored.put hplan, fun workspaceId id hid other hother => ?_⟩
  have hread : ∀ {j : String}, (s.put subscription).LiveIn workspaceId j →
      (j = subscription.id ∧ workspaceId = subscription.workspaceId) ∨
        (j ≠ subscription.id ∧ s.LiveIn workspaceId j) := by
    rintro j ⟨found, hfound, rfl, hlive⟩
    rw [get_put] at hfound
    split at hfound
    · next hj =>
      obtain rfl := Option.some.inj hfound
      exact .inl ⟨hj, rfl⟩
    · next hj => exact .inr ⟨hj, found, hfound, rfl, hlive⟩
  obtain ⟨hid, hworkspace⟩ | ⟨hid, hidLive⟩ := hread hid
  · obtain ⟨hother, -⟩ | ⟨hne, hotherLive⟩ := hread hother
    · exact hother.trans hid.symm
    · exact absurd (halone other (hworkspace ▸ hotherLive)) hne
  · obtain ⟨hother, hworkspace⟩ | ⟨-, hotherLive⟩ := hread hother
    · exact absurd (halone id (hworkspace ▸ hidLive)) hid
    · exact h.alone workspaceId id hidLive other hotherLive

theorem oneLive_upsert (h : OneLive s) (input : CreditSubscriptionInput)
    (halone : ∀ ms, iso host input.anchorAt = .ok ms → AloneIn s input.workspaceId input.id) :
    Keeps OneLive (upsert host input) s := by
  refine (wp_upsert host input).mono (fun subscription s' hs => ?_) fun _ _ hs => hs ▸ h
  have halone := halone _ hs.2.anchorAt
  exact hs.1 ▸ h.put hs.2.plan (hs.2.id ▸ hs.2.workspaceId ▸ halone)

/-- A workspace whose only live subscription is cancelled has none. -/
theorem not_liveIn_of_cancelled (halone : AloneIn s workspaceId id)
    (hcancelled : ∀ subscription, s.get id = some subscription → subscription.status = .cancelled)
    (other : String) : ¬ s.LiveIn workspaceId other := by
  intro hlive
  obtain rfl := halone other hlive
  obtain ⟨subscription, hget, -, hstatus⟩ := hlive
  exact hstatus (hcancelled subscription hget)

theorem aloneIn_of_none (h : ∀ other, ¬ s.LiveIn workspaceId other) (id : String) :
    AloneIn s workspaceId id := fun other hlive => absurd hlive (h other)

/-- Whatever `cancel` leaves under the id is cancelled. -/
theorem cancelled_cancel (h : EachStored PlanOrdered s) (id atTime : String) :
    Keeps (fun s' => ∀ subscription, s'.get id = some subscription →
      subscription.status = .cancelled) (cancel host id atTime) s := by
  simp only [Keeps, cancel, cancelWhen, wp_bind, wp_requireSubscription, wp_ite, wp_pure, touch,
    wp_modify, wp_check]
  refine ⟨fun subscription hget => ⟨fun _ => ?_, fun hnot found hfound => ?_⟩, fun hnone found hfound =>
    absurd (hnone.symm.trans hfound) (by simp)⟩
  · have hid := h.keyed id subscription hget
    refine ⟨fun ms _ found hfound => ?_, fun _ _ found hfound => ?_⟩ <;>
    · rw [get_put, if_pos hid.symm] at hfound
      exact Option.some.inj hfound ▸ rfl
  · obtain rfl := Option.some.inj (hget.symm.trans hfound)
    simpa using hnot

/-- The source of a replacement must be the live subscription of its workspace. -/
theorem oneLive_replaceSubscription (h : OneLive s) {source : CreditSubscription}
    (hget : s.get source.id = some source)
    (halone : AloneIn s source.workspaceId source.id) (target atTime : String) :
    Keeps OneLive (replaceSubscription host source.id target atTime) s := by
  simp only [Keeps, replaceSubscription, wp_bind, wp_requireSubscription_of_get hget, wp_check,
    wp_ite, wp_throw, wp_get, wp_pure, wp_modify]
  refine ⟨fun _ => h, fun _ => ⟨fun ms _ => ?_, fun _ _ => h⟩⟩
  have hplan := h.stored.each source.id source hget
  have hshrinks : Shrinks s (s.put (source.replaced ms)) := .put hget rfl fun _ => rfl
  have hcancelled : OneLive (s.put (source.replaced ms)) :=
    h.of_shrinks hshrinks (h.stored.put (hplan.restated ..))
  have hnone : ∀ other, ¬ (s.put (source.replaced ms)).LiveIn source.workspaceId other := by
    refine not_liveIn_of_cancelled (halone.of_shrinks hshrinks) fun found hfound => ?_
    rw [get_put, if_pos (show source.id = (source.replaced ms).id from rfl)] at hfound
    exact Option.some.inj hfound ▸ rfl
  have hreplaced : OneLive ((s.put (source.replaced ms)).put (source.replacement target ms)) :=
    hcancelled.put ⟨hplan.1, hplan.2, hplan.3, hplan.4, hplan.5⟩ (aloneIn_of_none hnone target)
  exact oneLive_foldl_recordPeriod target _ hreplaced

end Calls

/-! ## Activations -/

section Activation

variable (host : Host)

theorem oneLive_openSubscription (h : OneLive s) (request : SettlementRequest)
    (halone : ∀ ms, iso host request.anchorAt = .ok ms → AloneIn s request.workspaceId id)
    (tier : PaidPlanId) (coverage : CreditSubscriptionCoverage) (offset : Option Int) :
    Keeps OneLive (openSubscription host request id tier coverage offset) s := by
  simp only [Keeps, openSubscription, wp_bind, wp_pure]
  refine (oneLive_upsert host h _ halone).mono (fun subscription s' hs' => ?_) fun _ _ hs' => hs'
  exact oneLive_perform host hs' (.recordInitialPaidPeriod _) rfl

theorem oneLive_settleReplacement (h : OneLive s) (request : SettlementRequest)
    {active : ActivePlan} (hget : s.get active.subscription.id = some active.subscription)
    (halone : AloneIn s active.subscription.workspaceId active.subscription.id) (id : String)
    (tier : PaidPlanId) (coverage : CreditSubscriptionCoverage) :
    Keeps OneLive (settleReplacement host request active id tier coverage) s := by
  simp only [Keeps, settleReplacement, wp_bind, wp_ite, wp_throw, wp_pure]
  refine (oneLive_replaceSubscription host h hget halone id request.now).mono
    (fun replacement s' hs' => ⟨fun _ => ?_, fun _ => ?_⟩) fun _ _ hs' => hs'
  · refine (oneLive_perform host hs' (.scheduleChange _ _ _) rfl).mono
      (fun scheduled s' hs' => ⟨fun _ => hs', fun _ => ?_⟩) fun _ _ hs' => hs'
    exact oneLive_perform host hs' (.recordPaidPeriod _) rfl
  · refine (oneLive_perform host hs' (.recordPaidPeriod _) rfl).mono
      (fun paid s' hs' => ⟨fun _ => hs', fun _ => hs'⟩) fun _ _ hs' => hs'

variable {w : World}

/-- **An upgrade of the only subscription that can be live** keeps one live. -/
theorem oneLive_settleUpgrade (h : OneLive w.subscriptions) (request : SettlementRequest)
    {active : ActivePlan} (halone : ∀ ms, iso host request.anchorAt = .ok ms →
      AloneIn w.subscriptions request.workspaceId active.subscription.id) (id : String)
    (tier : PaidPlanId) (coverage : CreditSubscriptionCoverage) :
    Keeps (fun w => OneLive w.subscriptions) (settleUpgrade host request active id tier coverage)
      w := by
  simp only [Keeps, settleUpgrade, onLedger, onSubscriptions, wp_bind, wp_zoom]
  refine Wp.of_forall (fun _ _ => ?_) fun _ _ => h
  have hcancel := (wp_final.mpr (shrinks_step host h.stored
    (.cancel active.subscription.id request.now) rfl)).and
      (cancelled_cancel host h.stored active.subscription.id request.now)
  refine (hcancel.and (oneLive_perform host h (.cancel _ _) rfl)).mono
    (fun _ s' hs' => ?_) fun _ _ hs' => hs'.2
  obtain ⟨⟨hshrinks, hcancelled⟩, hone⟩ := hs'
  refine oneLive_openSubscription host hone request (fun ms hms => ?_) tier coverage _
  have hnone := not_liveIn_of_cancelled ((halone ms hms).of_shrinks hshrinks) hcancelled
  exact aloneIn_of_none hnone id

/-- The event pays for a higher plan than the subscription has now. -/
def outranks (request : SettlementRequest) (subscription : CreditSubscription) : Bool :=
  match frozenSettlementAuthority request.input >>= settledTier request,
    activePlan subscription request.clock with
  | .ok tier, .ok active => planRank active.tier < planRank tier
  | _, _ => false

/-- **An upgrade of a cancelled subscription beside a live one**: a new activation, with a readable
start, that names a cancelled subscription of the workspace and pays for a higher plan than it had,
while another subscription of the workspace is live. -/
def reopensBeside (s : MemoryCreditSubscriptionStore) (request : SettlementRequest) : Bool :=
  request.input.lifecycle = .activate &&
  (s.paymentEvents.get? (request.workspaceId, request.input.paymentEventId)).isNone &&
  (host.dateParse request.anchorAt).isSome &&
  s.subscriptions.values.any (fun other =>
    other.workspaceId = request.workspaceId && other.status ≠ .cancelled) &&
  (s.get (Text.trim (request.input.subscriptionId.getD ""))).any fun requested =>
    requested.workspaceId = request.workspaceId && requested.status = .cancelled &&
      !activatesReplacement request (some requested) && outranks request requested

theorem oneLive_settleActivation (h : OneLive w.subscriptions) (request : SettlementRequest)
    {active : Option ActivePlan} (hactive : (settledSubscription request
      (w.subscriptions.inWorkspace host request.workspaceId)).mapM (activePlan · request.clock) =
        .ok active) (tier : PaidPlanId) (coverage : CreditSubscriptionCoverage)
    (hcond : ∀ requested, requestedSubscription request
        (w.subscriptions.inWorkspace host request.workspaceId) = some requested →
      requested.status = .cancelled →
      activatesReplacement request (some requested) = false →
      (∀ a, activePlan requested request.clock = .ok a → planRank a.tier < planRank tier) →
      ∀ ms, iso host request.anchorAt = .ok ms →
      ∀ other, ¬ w.subscriptions.LiveIn request.workspaceId other)
    (hlifecycle : request.input.lifecycle = .activate) : Keeps (fun w => OneLive w.subscriptions)
      (settleActivation host request (requestedSubscription request
        (w.subscriptions.inWorkspace host request.workspaceId)) active tier coverage) w := by
  have hlisted : ∀ subscription,
      subscription ∈ w.subscriptions.inWorkspace host request.workspaceId ↔
        w.subscriptions.get subscription.id = some subscription ∧
          subscription.workspaceId = request.workspaceId := fun _ => mem_inWorkspace host h.stored
  rcases mapM_eq_ok.mp hactive with ⟨hnone, rfl⟩ | ⟨subscription, a, hsettled, rfl, ha⟩
  · have hempty : ∀ other, ¬ w.subscriptions.LiveIn request.workspaceId other := by
      rintro other ⟨found, hfound, hworkspace, hlive⟩
      have hmem := (hlisted found).mpr ⟨h.stored.get_self hfound, hworkspace⟩
      rw [settledSubscription, if_pos hlifecycle, Option.or_eq_none_iff] at hnone
      exact absurd (List.find?_eq_none.mp hnone.2 found hmem) (by simpa using hlive)
    simp only [Keeps, settleActivation, onSubscriptions, wp_bind, wp_check, wp_zoom]
    refine ⟨fun id _ => ?_, fun _ _ => h⟩
    exact oneLive_openSubscription host h request (fun _ _ => aloneIn_of_none hempty id) tier coverage _
  · obtain rfl : a.subscription = subscription := activePlan_subscription ha
    have hmem : a.subscription ∈ w.subscriptions.inWorkspace host request.workspaceId :=
      (settledSubscription_eq_some hsettled).elim
        (fun hrequested => (requestedSubscription_eq_some hrequested).1) fun hother => hother.2.1
    obtain ⟨hget, hworkspace⟩ := (hlisted _).mp hmem
    have hlone : a.subscription.status ≠ .cancelled →
        AloneIn w.subscriptions request.workspaceId a.subscription.id := fun hlive =>
      h.alone _ _ ⟨a.subscription, hget, hworkspace, hlive⟩
    simp only [Keeps, settleActivation, onSubscriptions, wp_bind, wp_check, wp_ite, wp_zoom]
    refine ⟨fun _ => ⟨fun _ _ => ⟨fun _ _ => ?_, fun _ _ => h⟩, fun _ _ => h⟩,
      fun hfirst => ⟨fun id hid => ⟨fun hreplaces => ?_, fun hsame => ⟨fun hrank => ?_, fun _ => ?_⟩⟩,
        fun _ _ => h⟩⟩
    · exact oneLive_perform host h (.recordPaidPeriod _) rfl
    · have hlive : a.subscription.status ≠ .cancelled := by
        rcases settledSubscription_eq_some hsettled with hrequested | hother
        · have hidEq := (requestedSubscription_eq_some hrequested).2.symm.trans hid
          exact absurd (Except.ok.inj hidEq) hreplaces.1
        · exact hother.2.2
      exact oneLive_settleReplacement host h request hget (hworkspace ▸ hlone hlive) id tier coverage
    · refine oneLive_settleUpgrade host h request (fun ms hms => ?_) id tier coverage
      by_cases hcancelled : a.subscription.status = .cancelled
      · rcases settledSubscription_eq_some hsettled with hrequested | hother
        · rw [hrequested] at hfirst
          refine aloneIn_of_none (hcond _ hrequested hcancelled (by simpa using hfirst)
            (fun b hb => ?_) ms hms) _
          exact Except.ok.inj (ha.symm.trans hb) ▸ hrank
        · exact absurd hcancelled hother.2.2
      · exact hlone hcancelled
    · exact oneLive_perform host h (.scheduleChange _ _ _) rfl

/-- The branches that open nothing keep one live subscription per workspace. -/
theorem oneLive_settlePaymentEvent_closed (h : OneLive w.subscriptions)
    (request : SettlementRequest) (hlifecycle : request.input.lifecycle ≠ .activate)
    (tier : PaidPlanId) (coverage : CreditSubscriptionCoverage) :
    Keeps (fun w => OneLive w.subscriptions) (settlePaymentEvent host request tier coverage) w := by
  have hwrites : Writes (SettlementStep host fun call => call.opens = false)
      (settlePaymentEvent host request tier coverage) w :=
    writes_settlePaymentEvent_closed host (fun _ hopens => hopens) request hlifecycle tier coverage
  refine wp_final.mpr (chain_invariant (fun w => OneLive w.subscriptions) (fun w w' hstep hw => ?_)
    hwrites.final h)
  cases hstep with
  | call call hopens => exact wp_final.mp (oneLive_perform host hw call hopens)
  | receipt => exact hw.of_get rfl
  | revoke => exact hw

/-- **Every settlement but a reopening one** keeps one live subscription per workspace. -/
theorem oneLive_settlePayment (h : OneLive w.subscriptions) (digest : SettlementFacts → String)
    (request : SettlementRequest) (hcond : reopensBeside host w.subscriptions request = false) :
    Keeps (fun w => OneLive w.subscriptions) (settlePayment host digest request) w := by
  simp only [Keeps, settlePayment, wp_bind, wp_check]
  refine ⟨fun _ _ => ⟨fun _ _ => ⟨fun _ _ => ⟨fun authority hauthority => ⟨fun tier htier => ?_,
    fun _ _ => h⟩, fun _ _ => h⟩, fun _ _ => h⟩, fun _ _ => h⟩, fun _ _ => h⟩
  have hevent : ∀ coverage, w.subscriptions.paymentEvents.get?
      (request.workspaceId, request.input.paymentEventId) = none →
      Keeps (fun w => OneLive w.subscriptions) (settlePaymentEvent host request tier coverage) w := by
    intro coverage hnew
    by_cases hlifecycle : request.input.lifecycle = .activate
    · simp only [Keeps, settlePaymentEvent, onSubscriptions, wp_bind, wp_zoom, wp_listForWorkspace,
        wp_check]
      refine ⟨fun active hactive => ?_, fun _ _ => h⟩
      rw [hlifecycle]
      refine oneLive_settleActivation host h request hactive tier coverage
        (fun requested hrequested hcancelled hfirst hrank ms hms other hother => ?_) hlifecycle
      obtain ⟨hmem, hid⟩ := requestedSubscription_eq_some hrequested
      obtain ⟨hget, hworkspace⟩ := (mem_inWorkspace host h.stored).mp hmem
      have hsettled : settledSubscription request
          (w.subscriptions.inWorkspace host request.workspaceId) = some requested := by
        rw [settledSubscription, hrequested, Option.some_or]
      rw [hsettled] at hactive
      obtain ⟨hnone, -⟩ | ⟨subscription, a, hsubscription, -, ha⟩ := mapM_eq_ok.mp hactive
      · exact absurd hnone (by simp)
      obtain rfl := Option.some.inj hsubscription
      have houtranks : outranks request requested = true := by
        rw [outranks, bind_eq_ok.mpr ⟨authority, hauthority, htier⟩, ha]
        exact decide_eq_true (hrank a ha)
      obtain ⟨found, hfound, hotherWorkspace, hlive⟩ := hother
      have hreopens : reopensBeside host w.subscriptions request = true := by
        simp only [reopensBeside, Bool.and_eq_true, decide_eq_true_eq, Option.any_eq_true,
          List.any_eq_true, Option.isNone_iff_eq_none]
        refine ⟨⟨⟨⟨hlifecycle, hnew⟩, dateParse_of_iso host hms⟩, found,
          OrderedMap.mem_values_of_get? hfound, hotherWorkspace, hlive⟩, requested, ?_,
          ⟨⟨hworkspace, hcancelled⟩, by rw [hfirst]; rfl⟩, houtranks⟩
        rw [← subscriptionIdFor_eq_ok hid]
        exact hget
      exact absurd hreopens (by rw [hcond]; simp)
    · exact oneLive_settlePaymentEvent_closed host h request hlifecycle tier coverage
  simp only [withPaymentEvent, wp_recover, wp_bind, wp_check, wp_get]
  refine ⟨fun _ _ => ?_, fun _ _ => ⟨fun _ _ => h, fun _ => h⟩⟩
  cases hreceipt : w.subscriptions.paymentEvents.get?
      (request.workspaceId, request.input.paymentEventId) with
  | some existing =>
    simp only [wp_bind, wp_check, wp_pure]
    exact ⟨fun _ _ => h, fun _ _ => ⟨fun _ _ => h, fun _ => h⟩⟩
  | none =>
    simp only [settleOnce, onSubscriptions, wp_bind, wp_check, wp_zoom, wp_modify, wp_pure]
    refine ⟨fun coverage _ => ?_, fun _ _ => ⟨fun _ _ => h, fun _ => h⟩⟩
    exact (hevent coverage hreceipt).mono (fun _ _ hw => hw.of_get rfl)
      fun _ _ hw => ⟨fun _ _ => hw, fun _ => hw⟩

end Activation

/-! ## Runs -/

/-- **At most one subscription of a workspace is not cancelled.** -/
def OneLivePerWorkspace (s : MemoryCreditSubscriptionStore) : Prop :=
  ∀ a ∈ s.subscriptions.values, ∀ b ∈ s.subscriptions.values, a.workspaceId = b.workspaceId →
    a.status ≠ .cancelled → b.status ≠ .cancelled → a = b

instance (s : MemoryCreditSubscriptionStore) : Decidable (OneLivePerWorkspace s) :=
  inferInstanceAs (Decidable (∀ a ∈ s.subscriptions.values, ∀ b ∈ s.subscriptions.values, _ → _ → _ → _))

theorem OneLive.perWorkspace (h : OneLive s) : OneLivePerWorkspace s := by
  have hstored : ∀ a ∈ s.subscriptions.values, s.get a.id = some a := by
    intro a ha
    obtain ⟨⟨id, found⟩, hentry, rfl⟩ := List.mem_map.mp ha
    exact h.stored.get_self (OrderedMap.get?_eq_some.mpr hentry)
  intro a ha b hb hworkspace haLive hbLive
  have hid : b.id = a.id := h.alone a.workspaceId a.id ⟨a, hstored a ha, rfl, haLive⟩ b.id
    ⟨b, hstored b hb, hworkspace.symm, hbLive⟩
  exact Option.some.inj ((hstored a ha).symm.trans (hid ▸ hstored b hb))

/-- **One live subscription per workspace**, in every run in which no settlement upgrades a
cancelled subscription beside a live one. -/
theorem oneLive_run (host : Host) (digest : SettlementFacts → String)
    (requests : List SettlementRequest)
    (hok : Admits (SettlementRequest.step host digest)
      (fun w request => reopensBeside host w.subscriptions request = false) requests .empty) :
    OneLivePerWorkspace (runSettlements host digest requests).subscriptions := by
  have hrun : OneLive (runSettlements host digest requests).subscriptions :=
    runAll_induct (fun w : World => OneLive w.subscriptions)
      (fun _ request hw hcond => wp_final.mp (oneLive_settlePayment host hw digest request hcond))
      requests OneLive.empty hok
  exact hrun.perWorkspace

/-- A digest of concrete runs: one text for the events of each subscription. -/
def digestBySubscription (facts : SettlementFacts) : String :=
  String.ofList (List.replicate 64 (if facts.subscriptionId = some "first" then 'a' else 'b'))

/-- The payment of a monthly plan, from the first of August 2026 on. -/
def monthlyPayment (lifecycle : CreditPaymentLifecycle) (eventId productId subscriptionId : String) :
    SettlementRequest where
  workspaceId := "ws"
  userId := "user"
  correlationId := "correlation"
  input := { lifecycle, paymentEventId := eventId, paymentProductId := productId, waffo := false,
             interval := some .monthly, periodStartsAt := some "2026-08-01T00:00:00.000Z",
             subscriptionId := some subscriptionId, providerOccurredAt := none,
             settlementAuthority := none }
  plans := ⟨[⟨.starter, 100⟩, ⟨.growth, 300⟩, ⟨.pro, 600⟩]⟩
  paymentMapping := some ⟨[⟨"starter", some .any, .starter⟩, ⟨"growth", some .any, .growth⟩,
    ⟨"pro", some .any, .pro⟩]⟩
  clock := ⟨1785628800000, by decide⟩

/-- A starter plan replaced by a growth plan of another subscription. -/
def upgradedPayments : List SettlementRequest :=
  [monthlyPayment .activate "event-1" "starter" "first",
    monthlyPayment .activate "event-2" "growth" "second"]

theorem oneLive_run_upgraded :
    OneLivePerWorkspace (runSettlements isoHost digestBySubscription upgradedPayments).subscriptions :=
  oneLive_run isoHost digestBySubscription upgradedPayments (by decide +kernel)

/-- **A late activation of the plan left** makes two subscriptions live: the starter plan's id,
cancelled by the upgrade, is activated with a pro plan. -/
theorem not_oneLive_late_activation :
    ¬ OneLivePerWorkspace (runSettlements isoHost digestBySubscription
      (upgradedPayments ++ [monthlyPayment .activate "event-3" "pro" "first"])).subscriptions := by
  decide +kernel

end MeiyeAgent
