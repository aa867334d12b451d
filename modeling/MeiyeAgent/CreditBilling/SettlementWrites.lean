import MeiyeAgent.CreditBilling.Settlement
import MeiyeAgent.CreditBilling.StoreWrites

/-!
# CreditBilling/SettlementWrites — a settlement is a sequence of calls

Whatever its branch and however it ends, a settlement writes by calls of the subscription store, by
revocations in the ledger and by the receipt of its event (`SettlementStep`).  So every invariant of
the store's calls holds after every settlement: `settlePayment_planOrdered`.
-/

namespace MeiyeAgent

open Effect

/-- One write of a settlement, its calls of the store meeting `ok`. -/
inductive SettlementStep (host : Host) (ok : StoreCall → Prop) (w : World) : World → Prop
  | call (call : StoreCall) (hok : ok call) :
    SettlementStep host ok w { w with subscriptions := StoreCall.step host w.subscriptions call }
  | receipt (workspaceId paymentEventId : String) (receipt : PaymentReceipt) :
    SettlementStep host ok w
      { w with subscriptions :=
          w.subscriptions.recordReceipt workspaceId paymentEventId receipt }
  | revoke (input : ExpireSubscriptionLotsInput) :
    SettlementStep host ok w { w with ledger := final (expireSubscriptionLots input) w.ledger }

section Writes

variable (host : Host) {ok : StoreCall → Prop} {w : World}

/-- One call of the store meeting `ok`. -/
inductive StoreStep (host : Host) (ok : StoreCall → Prop) (s : MemoryCreditSubscriptionStore) :
    MemoryCreditSubscriptionStore → Prop
  | call (call : StoreCall) (hok : ok call) : StoreStep host ok s (StoreCall.step host s call)

theorem writes_perform {call : StoreCall} (hok : ok call) (s : MemoryCreditSubscriptionStore) :
    Writes (StoreStep host ok) (call.perform host) s := by
  have hstep : Relation.ReflTransGen (StoreStep host ok) s (final (call.perform host) s) :=
    .single (.call call hok)
  exact writes_iff.mpr (wp_final.mpr hstep)

theorem writes_onSubscriptions {α : Type} {x : StoreM α}
    (h : Writes (StoreStep host ok) x w.subscriptions) :
    Writes (SettlementStep host ok) (onSubscriptions x) w := by
  refine Writes.zoom (fun _ => rfl) (fun w t t' hr => ?_) h
  obtain ⟨call, hok⟩ := hr
  have hstep : SettlementStep host ok { w with subscriptions := t } _ := .call call hok
  exact hstep

theorem writes_call {call : StoreCall} (hok : ok call) :
    Writes (SettlementStep host ok) (onSubscriptions (call.perform host)) w :=
  writes_onSubscriptions host (writes_perform host hok _)

/-! ## Reads -/

/-- The subscriptions of a workspace, as `listForWorkspace` lists them. -/
def MemoryCreditSubscriptionStore.inWorkspace (s : MemoryCreditSubscriptionStore)
    (workspaceId : String) : List CreditSubscription :=
  sortBy (fun left right => some (host.localeCompare (isoText right.updatedAt)
    (isoText left.updatedAt))) (s.subscriptions.values.filter (·.workspaceId == workspaceId))

theorem wp_listForWorkspace {s : MemoryCreditSubscriptionStore} (workspaceId : String)
    {Q : List CreditSubscription → MemoryCreditSubscriptionStore → Prop}
    {E : Thrown → MemoryCreditSubscriptionStore → Prop} :
    Wp (listForWorkspace host workspaceId) s Q E ↔ Q (s.inWorkspace host workspaceId) s := by
  rw [listForWorkspace, wp_bind, wp_get, wp_pure, MemoryCreditSubscriptionStore.inWorkspace]

variable {subscription : CreditSubscription}

/-- The workspace's list has its stored subscriptions and no others. -/
theorem mem_inWorkspace {s : MemoryCreditSubscriptionStore} (h : EachStored PlanOrdered s)
    {workspaceId : String} : subscription ∈ s.inWorkspace host workspaceId ↔
      s.get subscription.id = some subscription ∧ subscription.workspaceId = workspaceId := by
  rw [MemoryCreditSubscriptionStore.inWorkspace, (sortBy_perm _ _).mem_iff, List.mem_filter,
    beq_iff_eq]
  refine and_congr_left fun _ => ⟨fun hmem => ?_, OrderedMap.mem_values_of_get?⟩
  obtain ⟨⟨id, found⟩, hentry, rfl⟩ := List.mem_map.mp hmem
  have hget : s.get id = some found := OrderedMap.get?_eq_some.mpr hentry
  rw [h.keyed id found hget, hget]

theorem dateParse_of_iso {text : String} {ms : Int} (h : iso host text = .ok ms) :
    (host.dateParse text).isSome := by
  rw [iso, date] at h
  split at h
  · next heq => rw [heq]; rfl
  · exact absurd h (by simp)

theorem subscriptionIdFor_eq_ok {input : CreditPaymentSettlementInput} {id : String}
    (h : subscriptionIdFor input = .ok id) : id = Text.trim (input.subscriptionId.getD "") := by
  simp only [subscriptionIdFor] at h
  split at h
  · exact absurd h (by simp)
  · exact (Except.ok.inj h).symm

/-- The subscription an event names, by its trimmed id. -/
theorem requestedSubscription_eq_some {request : SettlementRequest}
    {listed : List CreditSubscription}
    (h : requestedSubscription request listed = some subscription) :
    subscription ∈ listed ∧ subscriptionIdFor request.input = .ok subscription.id := by
  rw [requestedSubscription, subscriptionForPayment] at h
  split at h
  · exact absurd h (by simp)
  · next hblank =>
    have hid : subscription.id = Text.trim (request.input.subscriptionId.getD "") := by
      simpa using List.find?_some h
    exact ⟨List.mem_of_find?_eq_some h, by rw [subscriptionIdFor, if_neg hblank, hid]⟩

/-- The subscription an activation is settled for is the one it names, or a live one. -/
theorem settledSubscription_eq_some {request : SettlementRequest} {listed : List CreditSubscription}
    (h : settledSubscription request listed = some subscription) :
    requestedSubscription request listed = some subscription ∨
      requestedSubscription request listed = none ∧ subscription ∈ listed ∧
        subscription.status ≠ .cancelled := by
  rw [settledSubscription] at h
  cases hrequested : requestedSubscription request listed with
  | some requested => exact .inl (by rw [hrequested] at h; exact h)
  | none =>
    rw [hrequested, Option.none_or] at h
    split at h
    · exact .inr ⟨rfl, List.mem_of_find?_eq_some h, by simpa using List.find?_some h⟩
    · exact absurd h (by simp)

theorem activePlan_subscription {now : Int} {active : ActivePlan}
    (h : activePlan subscription now = .ok active) : active.subscription = subscription := by
  obtain ⟨current, -, hplan⟩ := bind_eq_ok.mp h
  exact pure_eq_ok.mp hplan ▸ rfl

/-- The latest period is only read. -/
theorem wp_staleTerminalPeriod (subscriptionId : String) (input : CreditPaymentSettlementInput)
    (allowEqualPeriod : Bool) :
    Keeps (· = w) (staleTerminalPeriod host subscriptionId input allowEqualPeriod) w := by
  simp only [Keeps, staleTerminalPeriod, onSubscriptions, wp_bind, wp_zoom, latestPaidPeriodStartsAt,
    wp_get, wp_pure]
  split
  · exact (wp_pure _).mpr rfl
  · split
    · exact (wp_pure _).mpr rfl
    · split
      · exact (wp_throw _).mpr rfl
      · exact (wp_pure _).mpr rfl

theorem writes_listForWorkspace (workspaceId : String) :
    Writes (SettlementStep host ok) (onSubscriptions (listForWorkspace host workspaceId)) w :=
  writes_onSubscriptions host (writes_iff.mpr ((wp_listForWorkspace host _).mpr .refl))

theorem writes_staleTerminalPeriod (subscriptionId : String) (input : CreditPaymentSettlementInput)
    (allowEqualPeriod : Bool) :
    Writes (SettlementStep host ok)
      (staleTerminalPeriod host subscriptionId input allowEqualPeriod) w :=
  writes_iff.mpr ((wp_staleTerminalPeriod host subscriptionId input allowEqualPeriod).mono
    (fun _ _ h => h ▸ .refl) fun _ _ h => h ▸ .refl)

/-! ## Branches that open nothing -/

section Closed

variable (hok : ∀ call : StoreCall, call.opens = false → ok call)

include hok

theorem writes_settlePastDue (request : SettlementRequest) (active : Option ActivePlan) :
    Writes (SettlementStep host ok) (settlePastDue host request active) w := by
  refine Writes.bind (Writes.check _) fun active w => Writes.bind (Writes.check _) fun _ w => ?_
  refine Writes.bind (writes_staleTerminalPeriod host ..) fun stale w =>
    Writes.ite (Writes.pure _) ?_
  exact writes_call host (hok (.markPastDue _ _) rfl)

theorem writes_settleCancelAtPeriodEnd (request : SettlementRequest) (active : Option ActivePlan) :
    Writes (SettlementStep host ok) (settleCancelAtPeriodEnd host request active) w := by
  refine Writes.bind (Writes.check _) fun active w => ?_
  refine Writes.bind (writes_staleTerminalPeriod host ..) fun stale w =>
    Writes.ite (Writes.pure _) ?_
  exact writes_call host (hok (.scheduleChange _ _ _) rfl)

theorem writes_settleExpire (request : SettlementRequest) (active : Option ActivePlan) :
    Writes (SettlementStep host ok) (settleExpire host request active) w := by
  refine Writes.bind (Writes.check _) fun active w => ?_
  refine Writes.bind (writes_staleTerminalPeriod host ..) fun stale w =>
    Writes.ite (Writes.pure _) ?_
  exact writes_call host (hok (.cancel _ _) rfl)

theorem writes_settleResume (request : SettlementRequest) (active : Option ActivePlan)
    (tier : PaidPlanId) (coverage : CreditSubscriptionCoverage) :
    Writes (SettlementStep host ok) (settleResume host request active tier coverage) w := by
  refine Writes.bind (Writes.check _) fun active w => Writes.ite (Writes.throw_bind _) ?_
  refine Writes.bind (Writes.check _) fun _ w => Writes.bind (Writes.check _) fun _ w => ?_
  refine Writes.bind (writes_staleTerminalPeriod host ..) fun stale w =>
    Writes.ite (Writes.pure _) (Writes.bind (Writes.check _) fun _ w => ?_)
  refine Writes.bind (writes_call host (hok (.recordPaidPeriod _) rfl)) fun paid w => ?_
  exact Writes.ite (writes_call host (hok (.resume _ _) rfl)) (Writes.pure _)

theorem writes_settleUncancel (request : SettlementRequest) (active : Option ActivePlan) :
    Writes (SettlementStep host ok) (settleUncancel host request active) w :=
  Writes.bind (Writes.check _) fun _ _ => writes_call host (hok (.uncancel _ _) rfl)

theorem writes_settleRenew (request : SettlementRequest) (active : Option ActivePlan)
    (tier : PaidPlanId) (coverage : CreditSubscriptionCoverage) :
    Writes (SettlementStep host ok) (settleRenew host request active tier coverage) w := by
  refine Writes.bind (Writes.check _) fun active w => Writes.ite (Writes.throw_bind _) ?_
  refine Writes.bind (Writes.check _) fun _ w => Writes.bind (Writes.check _) fun _ w => ?_
  exact Writes.bind (Writes.check _) fun _ w => writes_call host (hok (.recordPaidPeriod _) rfl)

/-- **Only an activation opens a subscription.** -/
theorem writes_settlePaymentEvent_closed (request : SettlementRequest)
    (hlifecycle : request.input.lifecycle ≠ .activate) (tier : PaidPlanId)
    (coverage : CreditSubscriptionCoverage) :
    Writes (SettlementStep host ok) (settlePaymentEvent host request tier coverage) w := by
  refine Writes.bind (writes_listForWorkspace host _) fun subscriptions w => ?_
  refine Writes.bind (Writes.check _) fun active w => ?_
  cases h : request.input.lifecycle with
  | past_due => exact writes_settlePastDue host hok ..
  | cancel_at_period_end => exact writes_settleCancelAtPeriodEnd host hok ..
  | expire => exact writes_settleExpire host hok ..
  | resume => exact writes_settleResume host hok ..
  | uncancel_at_period_end => exact writes_settleUncancel host hok ..
  | renew => exact writes_settleRenew host hok ..
  | activate => exact absurd h hlifecycle

end Closed

/-! ## Activation -/

section Open

variable (hok : ∀ call : StoreCall, ok call)

include hok

theorem writes_openSubscription (request : SettlementRequest) (id : String) (tier : PaidPlanId)
    (coverage : CreditSubscriptionCoverage) (offset : Option Int)
    (s : MemoryCreditSubscriptionStore) :
    Writes (StoreStep host ok) (openSubscription host request id tier coverage offset) s :=
  Writes.bind (writes_perform host (hok (.upsert _)) s) fun _ s =>
    Writes.bind (writes_perform host (hok (.recordInitialPaidPeriod _)) s) fun _ _ => Writes.pure _

theorem writes_settleReplacement (request : SettlementRequest) (active : ActivePlan) (id : String)
    (tier : PaidPlanId) (coverage : CreditSubscriptionCoverage)
    (s : MemoryCreditSubscriptionStore) :
    Writes (StoreStep host ok) (settleReplacement host request active id tier coverage) s := by
  refine Writes.bind (writes_perform host (hok (.replaceSubscription _ _ _)) s)
    fun replacement s => Writes.ite ?_ ?_
  · refine Writes.bind (writes_perform host (hok (.scheduleChange _ _ _)) s) fun scheduled s => ?_
    exact Writes.ite (Writes.throw _) (writes_perform host (hok (.recordPaidPeriod _)) s)
  · refine Writes.bind (writes_perform host (hok (.recordPaidPeriod _)) s) fun paid s => ?_
    exact Writes.ite (Writes.throw _) (Writes.pure _)

theorem writes_settleUpgrade (request : SettlementRequest) (active : ActivePlan) (id : String)
    (tier : PaidPlanId) (coverage : CreditSubscriptionCoverage) :
    Writes (SettlementStep host ok) (settleUpgrade host request active id tier coverage) w := by
  have hrevoke : ∀ input : ExpireSubscriptionLotsInput,
      Writes (SettlementStep host ok) (onLedger (expireSubscriptionLots input)) w := fun input =>
    writes_iff.mpr (wp_zoom.mpr (wp_final.mpr (.single (.revoke input))))
  refine Writes.bind (hrevoke _) fun _ w => ?_
  refine Writes.bind (writes_call host (hok (.cancel _ _))) fun _ w => ?_
  exact writes_onSubscriptions host (writes_openSubscription host hok ..)

theorem writes_settleActivation (request : SettlementRequest)
    (requested : Option CreditSubscription) (active : Option ActivePlan) (tier : PaidPlanId)
    (coverage : CreditSubscriptionCoverage) :
    Writes (SettlementStep host ok) (settleActivation host request requested active tier coverage)
      w := by
  cases active with
  | none =>
    refine Writes.bind (Writes.check _) fun id w => ?_
    exact writes_onSubscriptions host (writes_openSubscription host hok ..)
  | some active =>
    refine Writes.ite ?_ (Writes.bind (Writes.check _) fun id w => Writes.ite ?_ (Writes.ite ?_ ?_))
    · refine Writes.bind (Writes.check _) fun _ w => Writes.bind (Writes.check _) fun _ w => ?_
      exact writes_call host (hok (.recordPaidPeriod _))
    · exact writes_onSubscriptions host (writes_settleReplacement host hok ..)
    · exact writes_settleUpgrade host hok ..
    · exact writes_call host (hok (.scheduleChange _ _ _))

theorem writes_settlePaymentEvent (request : SettlementRequest) (tier : PaidPlanId)
    (coverage : CreditSubscriptionCoverage) :
    Writes (SettlementStep host ok) (settlePaymentEvent host request tier coverage) w := by
  by_cases h : request.input.lifecycle = .activate
  · refine Writes.bind (writes_listForWorkspace host _) fun subscriptions w => ?_
    refine Writes.bind (Writes.check _) fun active w => ?_
    rw [h]
    exact writes_settleActivation host hok ..
  · exact writes_settlePaymentEvent_closed host (fun call _ => hok call) request h tier coverage

end Open

/-! ## The whole settlement -/

/-- **A settlement writes by calls, revocations and its receipt.** -/
theorem writes_settlePayment (digest : SettlementFacts → String) (request : SettlementRequest)
    (h : ∀ tier coverage (w : World),
      Writes (SettlementStep host ok) (settlePaymentEvent host request tier coverage) w) :
    Writes (SettlementStep host ok) (settlePayment host digest request) w := by
  refine Writes.bind (Writes.check _) fun _ w => Writes.bind (Writes.check _) fun _ w => ?_
  refine Writes.bind (Writes.check _) fun _ w => Writes.bind (Writes.check _) fun authority w => ?_
  refine Writes.bind (Writes.check _) fun tier w => ?_
  refine Writes.recover (Writes.bind (Writes.check _) fun _ w => Writes.bind Writes.get fun _ w => ?_)
  split
  · exact Writes.bind (Writes.check _) fun _ w => Writes.pure _
  · refine Writes.bind (Writes.bind (Writes.check _) fun coverage w => h _ _ _)
      fun result w => Writes.bind ?_ fun _ w => Writes.pure _
    exact writes_iff.mpr (wp_zoom.mpr ((wp_modify _).mpr (.single (.receipt ..))))

end Writes

/-! ## Runs of settlements -/

section Runs

variable (host : Host) (digest : SettlementFacts → String)

/-- The two stores as constructed. -/
def World.empty : World := ⟨.empty, .empty⟩

/-- What a settlement leaves, whether it returns or throws. -/
def SettlementRequest.step (w : World) (request : SettlementRequest) : World :=
  final (settlePayment host digest request) w

/-- The stores after the settlements, one after another. -/
def runSettlements (requests : List SettlementRequest) : World :=
  runAll (SettlementRequest.step host digest) requests .empty

/-- **What every call of the store keeps, every settlement keeps**, when the receipts do not
matter. -/
theorem settlement_keeps (I : MemoryCreditSubscriptionStore → Prop)
    (hcall : ∀ s call, I s → I (StoreCall.step host s call))
    (hreceipt : ∀ s workspaceId paymentEventId receipt, I s →
      I (s.recordReceipt workspaceId paymentEventId receipt))
    (request : SettlementRequest) {w : World} (h : I w.subscriptions) :
    I (request.step host digest w).subscriptions := by
  refine chain_invariant (fun w : World => I w.subscriptions) (fun w w' hstep hw => ?_)
    (writes_settlePayment host digest request fun tier coverage _ =>
      writes_settlePaymentEvent host (fun _ => trivial) request tier coverage).final h
  cases hstep with
  | call call => exact hcall _ call hw
  | receipt => exact hreceipt _ _ _ _ hw
  | revoke => exact hw

end Runs

end MeiyeAgent
