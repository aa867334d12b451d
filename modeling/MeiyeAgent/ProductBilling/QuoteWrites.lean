import MeiyeAgent.ProductBilling.QuoteService

/-!
# ProductBilling/QuoteWrites — which quotes an operation stores

Every operation stores a quote that it makes from one it has read.  `keeps_…` says, operation by
operation, which: a property of quotes that passes to those is kept by the operation, whichever way
it ends.  `keeps_perform` assembles them.
-/

namespace MeiyeAgent

open Effect

namespace ProductQuoteService

variable {service : ProductQuoteService} {P : ProductQuoteSnapshot → Prop}
  {host : QuoteHost} {now : TimeValue}

/-- **Every stored quote** stands under its own id and has the property. -/
def EachQuote (P : ProductQuoteSnapshot → Prop) (service : ProductQuoteService) : Prop :=
  ∀ id quote, service.quotes.get? id = some quote → quote.quoteId = id ∧ P quote

theorem eachQuote_empty : EachQuote P empty := fun _ _ h => nomatch h

theorem eachQuote_withQuote {quote : ProductQuoteSnapshot} (h : EachQuote P service)
    (hquote : P quote) : EachQuote P (service.withQuote quote) := by
  exact OrderedMap.forall_get?_set ⟨rfl, hquote⟩ h

/-- The quotes are what the property looks at. -/
theorem eachQuote_congr {service' : ProductQuoteService} (hsame : service'.quotes = service.quotes)
    (h : EachQuote P service) : EachQuote P service' := by
  intro id quote hquote
  rw [hsame] at hquote
  exact h id quote hquote

section

variable {α : Type} {Q : α → ProductQuoteService → Prop} {E : Thrown → ProductQuoteService → Prop}

/-! ## Reading -/

theorem wp_requireQuote {quoteId : String} {Q : ProductQuoteSnapshot → ProductQuoteService → Prop} :
    Wp (requireQuote quoteId) service Q E ↔
      (∀ quote, service.quotes.get? quoteId = some quote → Q quote service) ∧
        (service.quotes.get? quoteId = none →
          E (.domain .NOT_FOUND ("Quote " ++ quoteId ++ " was not found.")) service) := by
  simp only [requireQuote, wp_bind, wp_get]
  rcases service.quotes.get? quoteId with _ | quote <;> simp

theorem wp_requireUsage {taskId message : String}
    {Q : ProductUsageRecord → ProductQuoteService → Prop} :
    Wp (requireUsage taskId message) service Q E ↔
      (∀ usage, service.usage.getByTask taskId = some usage → Q usage service) ∧
        (service.usage.getByTask taskId = none → E (.domain .NOT_FOUND message) service) := by
  simp only [requireUsage, wp_bind, wp_get]
  rcases service.usage.getByTask taskId with _ | usage <;> simp

theorem wp_requireTask {quote : ProductQuoteSnapshot} {message : String}
    {Q : String → ProductQuoteService → Prop} :
    Wp (requireTask quote message) service Q E ↔
      (∀ taskId, present quote.taskId = some taskId → Q taskId service) ∧
        (present quote.taskId = none → E (.domain .INVALID_STATE message) service) := by
  rw [requireTask]
  rcases present quote.taskId with _ | taskId <;> simp

theorem wp_putQuote {quote : ProductQuoteSnapshot} {Q : Unit → ProductQuoteService → Prop} :
    Wp (putQuote quote) service Q E ↔ Q () (service.withQuote quote) := wp_modify _

theorem wp_onUsage {x : EStateM Thrown MemoryProductUsageLedger α} :
    Wp (onUsage x) service Q E ↔ Wp x service.usage (fun a usage => Q a { service with usage })
      (fun e usage => E e { service with usage }) := wp_zoom

theorem wp_onCosts {x : EStateM Thrown MemoryProviderCostSnapshotStore α} :
    Wp (onCosts x) service Q E ↔
      Wp x service.providerCosts (fun a providerCosts => Q a { service with providerCosts })
        (fun e providerCosts => E e { service with providerCosts }) := wp_zoom

end

/-- The ledgers are no quotes: whatever is done to them keeps a property of the quotes. -/
theorem keeps_onUsage {α : Type} {x : EStateM Thrown MemoryProductUsageLedger α}
    {Q : α → ProductQuoteService → Prop} {E : Thrown → ProductQuoteService → Prop}
    (hQ : ∀ a usage, Q a { service with usage }) (hE : ∀ e usage, E e { service with usage }) :
    Wp (onUsage x) service Q E := wp_onUsage.mpr (Wp.of_forall hQ hE)

/-! ## Operations -/

/-- **Building** stores the new quote of an input that is checked. -/
theorem wp_buildQuote {input : BuildProductQuoteInput}
    {Q : ProductQuoteSnapshot → ProductQuoteService → Prop}
    {E : Thrown → ProductQuoteService → Prop} (hE : ∀ e, E e service)
    (hsame : ∀ existing, service.quotes.get? input.quoteId = some existing →
      checkQuoteInput input = .ok () → existing.revision = revisionFor host input →
        Q existing service)
    (hnew : service.quotes.get? input.quoteId = none → checkQuoteInput input = .ok () →
      quotedAmount input ≤ input.authorizedCeiling.getD (quotedAmount input) →
        Q (newQuote host now input) (service.withQuote (newQuote host now input))) :
    Wp (buildQuote host now input) service Q E := by
  simp only [buildQuote, wp_bind, wp_check, wp_get]
  refine ⟨fun _ hcheck => ?_, fun _ _ => hE _⟩
  rcases hget : service.quotes.get? input.quoteId with _ | existing
  · simp only [wp_ite, wp_bind, wp_throw, wp_putQuote, wp_pure]
    exact ⟨fun _ => hE _, fun hceiling => ⟨fun _ => hE _, fun _ => hnew hget hcheck
      (not_lt.mp hceiling)⟩⟩
  · simp only [wp_ite, wp_bind, wp_throw, wp_pure]
    exact ⟨fun _ => hE _, fun hsameRevision => hsame existing hget hcheck
      (not_not.mp hsameRevision)⟩

/-- **Confirming** stores the confirmed quote in place of the quoted one. -/
theorem wp_confirm {input : ConfirmQuoteInput}
    {Q : ProductQuoteSnapshot → ProductQuoteService → Prop}
    {E : Thrown → ProductQuoteService → Prop} (hE : ∀ e, E e service)
    (hsame : ∀ quote, service.quotes.get? input.quoteId = some quote →
      quote.taskId = some input.taskId → quote.lifecycleStatus ≠ .quoted → Q quote service)
    (hnew : ∀ quote, service.quotes.get? input.quoteId = some quote →
      Text.isBlank input.taskId = false →
      (∀ taskId, present quote.taskId = some taskId → taskId = input.taskId) →
      (quote.lifecycleStatus = .quoted ∨
        quote.lifecycleStatus = .confirmed ∧ quote.taskId ≠ some input.taskId) →
      (∀ id, present (service.taskIndex.get? input.taskId) = some id → id = input.quoteId) →
        Q (confirmed now quote input)
          { service with
            quotes := service.quotes.set input.quoteId (confirmed now quote input)
            taskIndex := service.taskIndex.set input.taskId input.quoteId }) :
    Wp (confirm now input) service Q E := by
  simp only [confirm, wp_bind, wp_requireQuote, wp_ite, wp_throw, wp_pure, wp_get, wp_modify]
  refine ⟨fun quote hget => ⟨fun _ => hE _, fun hblank => ⟨fun _ => hE _, fun htask => ⟨fun hdone =>
    hsame quote hget hdone.1 hdone.2, fun hopen => ⟨fun _ => hE _, fun hstatus => ⟨fun _ => hE _,
      fun hindex => ⟨fun hdone => hsame quote hget hdone.2 (hdone.1 ▸ (by rintro ⟨⟩)),
        fun hunbound => ?_⟩⟩⟩⟩⟩⟩, fun _ => hE _⟩
  have hany : ∀ {o : Option String} {text : String}, ¬ o.any (fun t => decide (t ≠ text)) = true →
      ∀ t, o = some t → t = text := by
    rintro _ text hnone t rfl
    simpa using hnone
  refine hnew quote hget (by simpa using hblank) (hany htask) ?_ (hany hindex)
  by_cases hquoted : quote.lifecycleStatus = .quoted
  · exact .inl hquoted
  · have hconfirmed : quote.lifecycleStatus = .confirmed :=
      not_not.mp fun hne => hstatus ⟨hquoted, hne⟩
    exact .inr ⟨hconfirmed, fun htask => hunbound ⟨hconfirmed, htask⟩⟩

section

variable {α : Type} {E : Thrown → ProductQuoteService → Prop}
  {Q : ProductQuoteSnapshot × ProductUsageRecord → ProductQuoteService → Prop}

/-- The quote of a reservation. -/
def reservedQuote (now : TimeValue) (quote : ProductQuoteSnapshot) : ProductQuoteSnapshot :=
  { quote with lifecycleStatus := .reserved, reservedAt := some (isoText now) }

/-- The usage a quote reserves. -/
def usageReservation (host : QuoteHost) (now : TimeValue) (quote : ProductQuoteSnapshot)
    (taskId workspaceId : String) (input : ReserveQuoteInput) : ReserveProductUsageInput where
  id := input.usageId.getD (usageIdFor host taskId quote.quoteId)
  taskId := taskId
  workspaceId := workspaceId
  quoteId := quote.quoteId
  units := some input.units
  credits := quote.creditCost
  billingMode := quote.billingMode
  createdAt := isoText now

/-- **Reserving** stores the reserved quote of a confirmed one, once its usage is reserved. -/
theorem wp_reserve {input : ReserveQuoteInput} (hE : ∀ e, E e service)
    (h : ∀ quote taskId workspaceId, service.quotes.get? input.quoteId = some quote →
      (quote.lifecycleStatus = .confirmed ∨ quote.lifecycleStatus = .reserved ∨
        quote.lifecycleStatus = .dispatched ∨ quote.lifecycleStatus = .settled) →
      present quote.taskId = some taskId → present quote.workspaceId = some workspaceId →
      checkReservedUnits quote input = .ok () →
        Wp (MemoryProductUsageLedger.reserve
            (usageReservation host now quote taskId workspaceId input)) service.usage
          (fun record usage =>
            (quote.lifecycleStatus = .confirmed → Q (reservedQuote now quote, record)
              ({ service with usage }.withQuote (reservedQuote now quote))) ∧
            (quote.lifecycleStatus ≠ .confirmed → Q (quote, record) { service with usage }))
          (fun e usage => E e { service with usage })) :
    Wp (reserve host now input) service Q E := by
  simp only [reserve, wp_bind, wp_requireQuote, wp_ite, wp_throw]
  refine ⟨fun quote hget => ⟨fun _ => hE _, fun hstatus => ?_⟩, fun _ => hE _⟩
  have hopen : quote.lifecycleStatus = .confirmed ∨ quote.lifecycleStatus = .reserved ∨
      quote.lifecycleStatus = .dispatched ∨ quote.lifecycleStatus = .settled := by tauto
  split
  · next taskId workspaceId htask hworkspace =>
    simp only [wp_bind, wp_check, wp_onUsage, wp_ite, wp_putQuote, wp_pure]
    exact ⟨fun _ hunits => h quote taskId workspaceId hget hopen htask hworkspace hunits,
      fun _ _ => hE _⟩
  · simp only [wp_throw]
    exact hE _

/-! ### Dispatching -/

/-- The quote of a dispatched attempt. -/
def dispatchedQuote (quote : ProductQuoteSnapshot) : ProductQuoteSnapshot :=
  { quote with lifecycleStatus := .dispatched }

variable {D : ProductQuoteSnapshot × Option ProviderCostSnapshot → ProductQuoteService → Prop}

variable {quote : ProductQuoteSnapshot}

/-- Saving a cost leaves the quotes and the usage. -/
theorem wp_saveAttemptCost {attemptId deploymentId : String} {facts : Option ProviderCostFacts}
    {Q : Option ProviderCostSnapshot → ProductQuoteService → Prop}
    (hQ : ∀ cost providerCosts, Q cost { service with providerCosts })
    (hE : ∀ e providerCosts, E e { service with providerCosts }) :
    Wp (saveAttemptCost quote attemptId deploymentId facts) service Q E := by
  unfold saveAttemptCost
  split
  · simp only [wp_bind, wp_check, wp_map, wp_onCosts]
    exact ⟨fun snapshot _ => Wp.of_forall (fun cost costs => hQ _ costs) fun e costs => hE e costs,
      fun e _ => hE e service.providerCosts⟩
  · simp only [wp_pure]
    exact hQ none service.providerCosts

theorem wp_markDispatched {Q : ProductQuoteSnapshot → ProductQuoteService → Prop} :
    Wp (markDispatched quote) service Q E ↔
      (quote.lifecycleStatus = .reserved →
        Q (dispatchedQuote quote) (service.withQuote (dispatchedQuote quote))) ∧
      (quote.lifecycleStatus ≠ .reserved → Q quote service) := by
  simp only [markDispatched, wp_bind, wp_ite, wp_putQuote, wp_pure]
  rfl

/-- **Dispatching** stores the dispatched quote of a reserved one. -/
theorem wp_dispatch {input : DispatchQuoteInput}
    (hE : ∀ e providerCosts, E e { service with providerCosts })
    (h : ∀ quote cost providerCosts, service.quotes.get? input.quoteId = some quote →
      (quote.lifecycleStatus = .reserved →
        D (dispatchedQuote quote, cost)
          ({ service with providerCosts }.withQuote (dispatchedQuote quote))) ∧
      (quote.lifecycleStatus = .dispatched → D (quote, cost) { service with providerCosts })) :
    Wp (dispatch input) service D E := by
  simp only [dispatch, wp_bind, wp_requireQuote, wp_ite, wp_throw, wp_check, wp_pure]
  refine ⟨fun quote hget => ⟨fun _ => hE _ service.providerCosts, fun hstatus =>
    ⟨fun _ _ => wp_saveAttemptCost (fun cost costs => ?_) hE,
      fun _ _ => hE _ service.providerCosts⟩⟩, fun _ => hE _ service.providerCosts⟩
  obtain ⟨hreserved, hdispatched⟩ := h quote cost costs hget
  exact wp_markDispatched.mpr ⟨hreserved, fun hne => hdispatched (by tauto)⟩

/-- **Falling back** does so as well. -/
theorem wp_fallbackDispatch {input : FallbackDispatchInput}
    (hE : ∀ e providerCosts, E e { service with providerCosts })
    (h : ∀ quote cost providerCosts, service.quotes.get? input.quoteId = some quote →
      (quote.lifecycleStatus = .reserved →
        D (dispatchedQuote quote, cost)
          ({ service with providerCosts }.withQuote (dispatchedQuote quote))) ∧
      (quote.lifecycleStatus = .dispatched → D (quote, cost) { service with providerCosts })) :
    Wp (fallbackDispatch input) service D E := by
  simp only [fallbackDispatch, wp_bind, wp_requireQuote, wp_ite, wp_throw, wp_check, wp_get,
    wp_pure]
  refine ⟨fun quote hget => ⟨fun _ => hE _ service.providerCosts, fun hstatus => ⟨fun _ _ =>
    ⟨fun _ => hE _ service.providerCosts, fun _ => wp_saveAttemptCost (fun cost costs => ?_) hE⟩,
      fun _ _ => hE _ service.providerCosts⟩⟩, fun _ => hE _ service.providerCosts⟩
  obtain ⟨hreserved, hdispatched⟩ := h quote cost costs hget
  exact wp_markDispatched.mpr ⟨hreserved, fun hne => hdispatched (by tauto)⟩

/-! ### Settling and failing -/

/-- A quote still to be settled. -/
def Unsettled (quote : ProductQuoteSnapshot) : Prop :=
  quote.lifecycleStatus = .reserved ∨ quote.lifecycleStatus = .dispatched

variable {taskId : String}

theorem wp_settleCredits {creditCost : Int} {settlement : CreditSettlement} :
    Wp (settleCredits now quote taskId creditCost settlement) service Q E ↔
      Wp (MemoryProductUsageLedger.settle (creditUsage now taskId settlement)) service.usage
        (fun record usage => Q (creditQuote now quote creditCost settlement, record)
          ({ service with usage }.withQuote (creditQuote now quote creditCost settlement)))
        (fun e usage => E e { service with usage }) := by
  simp only [settleCredits, wp_bind, wp_onUsage, wp_putQuote, wp_pure]

theorem wp_failCredits {refundCredits : Bool} :
    Wp (failCredits now quote taskId refundCredits) service Q E ↔
      Wp (if refundCredits then
          MemoryProductUsageLedger.refund
            { taskId, remainingUnits := some [], updatedAt := isoText now }
        else
          MemoryProductUsageLedger.settle
            { taskId
              settledUnits := some []
              settlementStatus := .reconciled
              updatedAt := isoText now }) service.usage
        (fun record usage => Q (failedQuote now quote refundCredits, record)
          ({ service with usage }.withQuote (failedQuote now quote refundCredits)))
        (fun e usage => E e { service with usage }) := by
  simp only [failCredits, wp_bind, wp_onUsage, wp_putQuote, wp_pure]

theorem wp_failUnits {settlement : UnitSettlement} :
    Wp (failUnits now quote taskId settlement) service Q E ↔
      Wp (MemoryProductUsageLedger.refund
          { taskId, remainingUnits := some settlement.units, updatedAt := isoText now })
        service.usage
        (fun record usage => Q (refundedQuote now quote settlement, record)
          ({ service with usage }.withQuote (refundedQuote now quote settlement)))
        (fun e usage => E e { service with usage }) := by
  simp only [failUnits, wp_bind, wp_onUsage, wp_putQuote, wp_pure]

variable {input : SettleQuoteInput}

/-- Absorbing what is over the ceiling leaves the quotes and the usage. -/
theorem wp_absorb {amount : ℚ} {Q : Unit → ProductQuoteService → Prop}
    (hQ : ∀ providerCosts, Q () { service with providerCosts })
    (hE : ∀ e providerCosts, E e { service with providerCosts }) :
    Wp (absorb input amount) service Q E := by
  simp only [absorb, wp_bind, wp_get]
  split
  · simp only [wp_bind, wp_check, wp_onCosts, wp_pure]
    exact ⟨fun absorbed _ => Wp.of_forall (fun _ costs => hQ costs) fun e costs => hE e costs,
      fun e _ => hE e service.providerCosts⟩
  · simp only [wp_pure]
    exact hQ service.providerCosts

theorem wp_settleUnits {settlement : UnitSettlement}
    (hE : ∀ e providerCosts, E e { service with providerCosts }) (h : ∀ providerCosts,
      Wp (MemoryProductUsageLedger.settle (unitUsage now taskId settlement)) service.usage
        (fun record usage => Q (unitQuote now quote settlement, record)
          ({ service with usage, providerCosts }.withQuote (unitQuote now quote settlement)))
        (fun e usage => E e { service with usage, providerCosts })) :
    Wp (settleUnits now quote taskId input settlement) service Q E := by
  simp only [settleUnits, wp_bind, wp_ite, wp_onUsage, wp_putQuote, wp_pure]
  exact ⟨fun _ => wp_absorb (fun costs => h costs) hE, fun _ => h service.providerCosts⟩

/-- **Settling** is a replay, or charges by the credits or by the units. -/
theorem wp_settle (hE : ∀ e, E e service)
    (hreplay : ∀ quote taskId usage, service.quotes.get? input.quoteId = some quote →
      quote.lifecycleStatus = .settled → present quote.taskId = some taskId →
      service.usage.getByTask taskId = some usage → Q (quote, usage) service)
    (hcredits : ∀ quote taskId usage creditCost settlement,
      service.quotes.get? input.quoteId = some quote → Unsettled quote →
      present quote.taskId = some taskId → service.usage.getByTask taskId = some usage →
      quote.creditCost = some creditCost →
      creditSettlement quote creditCost input = .ok settlement →
        Wp (settleCredits now quote taskId creditCost settlement) service Q E)
    (hunits : ∀ quote taskId usage settlement,
      service.quotes.get? input.quoteId = some quote → Unsettled quote →
      present quote.taskId = some taskId → service.usage.getByTask taskId = some usage →
      quote.creditCost = none → unitSettlement quote usage input.trustedUsage = .ok settlement →
        Wp (settleUnits now quote taskId input settlement) service Q E) :
    Wp (settle now input) service Q E := by
  simp only [settle, wp_bind, wp_requireQuote, wp_requireTask, wp_requireUsage, wp_ite, wp_throw,
    wp_pure]
  refine ⟨fun quote hget => ⟨fun _ => hE _, fun hstatus => ⟨fun taskId htask =>
    ⟨fun hsettled => ⟨fun usage husage => hreplay quote taskId usage hget hsettled htask husage,
      fun _ => hE _⟩, fun hsettled => ⟨fun usage husage => ?_, fun _ => hE _⟩⟩, fun _ => hE _⟩⟩,
    fun _ => hE _⟩
  have hopen : Unsettled quote := by
    rw [Unsettled]
    tauto
  split
  · next creditCost hcredit =>
    simp only [wp_bind, wp_check]
    exact ⟨fun settlement hok =>
      hcredits quote taskId usage creditCost settlement hget hopen htask husage hcredit hok,
        fun _ _ => hE _⟩
  · next hcredit =>
    simp only [wp_bind, wp_check]
    exact ⟨fun settlement hok =>
      hunits quote taskId usage settlement hget hopen htask husage hcredit hok, fun _ _ => hE _⟩

/-- A quote that is neither settled nor refunded. -/
def Failable (quote : ProductQuoteSnapshot) : Prop :=
  quote.lifecycleStatus ≠ .settled ∧ quote.lifecycleStatus ≠ .refunded

/-- **Failing** is a replay, or refunds a package, the credits or the units. -/
theorem wp_failAndRefund {input : FailAndRefundInput} (hE : ∀ e, E e service)
    (hreplay : ∀ quote taskId usage, service.quotes.get? input.quoteId = some quote →
      ¬ Failable quote → present quote.taskId = some taskId →
      service.usage.getByTask taskId = some usage → Q (quote, usage) service)
    (hpackage : ∀ quote taskId usage creditCost contract settlement,
      service.quotes.get? input.quoteId = some quote → Failable quote →
      present quote.taskId = some taskId → service.usage.getByTask taskId = some usage →
      quote.creditCost = some creditCost → quote.packageContract = some contract →
      input.forceCreditRefund ≠ some true → packageFailure contract = .ok settlement →
        Wp (settleCredits now quote taskId creditCost settlement) service Q E)
    (hcredits : ∀ quote taskId usage creditCost,
      service.quotes.get? input.quoteId = some quote → Failable quote →
      present quote.taskId = some taskId → service.usage.getByTask taskId = some usage →
      quote.creditCost = some creditCost →
        Wp (failCredits now quote taskId (input.forceCreditRefund = some true ||
          quote.failureRefundsCredits = some true)) service Q E)
    (hunits : ∀ quote taskId usage settlement,
      service.quotes.get? input.quoteId = some quote → Failable quote →
      present quote.taskId = some taskId → service.usage.getByTask taskId = some usage →
      quote.creditCost = none → unitRefund quote usage input.trustedUsage = .ok settlement →
        Wp (failUnits now quote taskId settlement) service Q E) :
    Wp (failAndRefund now input) service Q E := by
  simp only [failAndRefund, wp_bind, wp_requireQuote, wp_requireTask, wp_requireUsage, wp_ite,
    wp_pure]
  refine ⟨fun quote hget => ⟨fun taskId htask => ⟨fun usage husage => ⟨fun hdone =>
    hreplay quote taskId usage hget (fun hopen => hdone.elim hopen.1 hopen.2) htask husage,
      fun hdone => ?_⟩, fun _ => hE _⟩, fun _ => hE _⟩, fun _ => hE _⟩
  have hopen : Failable quote := not_or.mp hdone
  split
  · next creditCost contract hcredit hcontract =>
    obtain ⟨hcontract, hforced⟩ := Option.filter_eq_some_iff.mp hcontract
    simp only [wp_bind, wp_check]
    exact ⟨fun settlement hok => hpackage quote taskId usage creditCost contract settlement hget
      hopen htask husage hcredit hcontract (by simpa using hforced) hok, fun _ _ => hE _⟩
  · next creditCost hcredit _ => exact hcredits quote taskId usage creditCost hget hopen htask husage hcredit
  · next hcredit =>
    simp only [wp_bind, wp_check]
    exact ⟨fun settlement hok =>
      hunits quote taskId usage settlement hget hopen htask husage hcredit hok, fun _ _ => hE _⟩

end

/-! ## What a call stores -/

/-- Is there usage of the quote's task? -/
def hasUsage (service : ProductQuoteService) (quote : ProductQuoteSnapshot) : Bool :=
  (present quote.taskId).any fun taskId => (service.usage.getByTask taskId).isSome

theorem hasUsage_of {quote : ProductQuoteSnapshot} {taskId : String} {usage : ProductUsageRecord}
    (htask : present quote.taskId = some taskId)
    (husage : service.usage.getByTask taskId = some usage) : service.hasUsage quote = true := by
  rw [hasUsage, htask, Option.any_some, husage, Option.isSome_some]

/-- **The property passes to every quote the call may store.** -/
def PassesTo (P : ProductQuoteSnapshot → Prop) (host : QuoteHost) (now : TimeValue)
    (service : ProductQuoteService) : QuoteCall → Prop
  | .buildQuote input =>
    checkQuoteInput input = .ok () →
      quotedAmount input ≤ input.authorizedCeiling.getD (quotedAmount input) →
        P (newQuote host now input)
  | .confirm input => ∀ quote, service.quotes.get? input.quoteId = some quote → P quote →
      Text.isBlank input.taskId = false →
      (∀ taskId, present quote.taskId = some taskId → taskId = input.taskId) →
      (quote.lifecycleStatus = .quoted ∨
        quote.lifecycleStatus = .confirmed ∧ quote.taskId ≠ some input.taskId) →
      (∀ id, present (service.taskIndex.get? input.taskId) = some id → id = input.quoteId) →
          P (confirmed now quote input)
  | .reserve input => ∀ quote, service.quotes.get? input.quoteId = some quote → P quote →
      P (reservedQuote now quote)
  | .replaceReservedQuote input =>
    (checkQuoteInput input.successor = .ok () →
      quotedAmount input.successor ≤
        input.successor.authorizedCeiling.getD (quotedAmount input.successor) →
          P (newQuote host now input.successor)) ∧
    (∀ quote, service.quotes.get? input.previousQuoteId = some quote → P quote →
      isReservedQuote quote (service.usage.getByTask input.taskId) input = true →
        input.successor.workspaceId = quote.workspaceId → P (released now quote)) ∧
    (∀ quote, P quote →
      P (confirmed now quote { quoteId := quote.quoteId, taskId := input.taskId })) ∧
    ∀ quote, P quote → P (reservedQuote now quote)
  | .dispatch input => ∀ quote, service.quotes.get? input.quoteId = some quote → P quote →
      P (dispatchedQuote quote)
  | .fallbackDispatch input => ∀ quote, service.quotes.get? input.quoteId = some quote → P quote →
      P (dispatchedQuote quote)
  | .settle input => ∀ quote, service.quotes.get? input.quoteId = some quote → P quote →
      Unsettled quote → service.hasUsage quote = true →
      (∀ creditCost settlement, quote.creditCost = some creditCost →
        creditSettlement quote creditCost input = .ok settlement →
          P (creditQuote now quote creditCost settlement)) ∧
      ∀ usage settlement, quote.creditCost = none →
        unitSettlement quote usage input.trustedUsage = .ok settlement →
          P (unitQuote now quote settlement)
  | .failAndRefund input => ∀ quote, service.quotes.get? input.quoteId = some quote → P quote →
      Failable quote → service.hasUsage quote = true →
      (∀ creditCost contract settlement, quote.creditCost = some creditCost →
        quote.packageContract = some contract → input.forceCreditRefund ≠ some true →
          packageFailure contract = .ok settlement →
            P (creditQuote now quote creditCost settlement)) ∧
      (∀ refundCredits, quote.creditCost.isSome → P (failedQuote now quote refundCredits)) ∧
      ∀ usage settlement, quote.creditCost = none →
        unitRefund quote usage input.trustedUsage = .ok settlement →
          P (refundedQuote now quote settlement)

theorem eachQuote_get (h : EachQuote P service) {id : String} {quote : ProductQuoteSnapshot}
    (hget : service.quotes.get? id = some quote) : P quote := (h id quote hget).2

/-- A quote stored in place of another, and the task's quote beside it. -/
theorem eachQuote_confirm (h : EachQuote P service) {quote : ProductQuoteSnapshot}
    {input : ConfirmQuoteInput} (hid : quote.quoteId = input.quoteId)
    (hquote : P (confirmed now quote input)) (taskIndex : OrderedMap String String) :
    EachQuote P { service with
      quotes := service.quotes.set input.quoteId (confirmed now quote input), taskIndex } := by
  have hstored := eachQuote_withQuote h hquote
  have hkey : (confirmed now quote input).quoteId = input.quoteId := hid
  rw [withQuote, hkey] at hstored
  exact eachQuote_congr rfl hstored

theorem keeps_buildQuote {input : BuildProductQuoteInput} (h : EachQuote P service)
    (hpass : PassesTo P host now service (.buildQuote input)) :
    Wp (buildQuote host now input) service (fun _ => EachQuote P) fun _ => EachQuote P :=
  wp_buildQuote (fun _ => h) (fun _ _ _ _ => h) fun _ hcheck hceiling =>
    eachQuote_withQuote h (hpass hcheck hceiling)

theorem keeps_confirm {input : ConfirmQuoteInput} (h : EachQuote P service)
    (hpass : PassesTo P host now service (.confirm input)) :
    Wp (confirm now input) service (fun quote service' => EachQuote P service' ∧ P quote)
      fun _ => EachQuote P := by
  refine wp_confirm (fun _ => h) (fun quote hget _ _ => ⟨h, eachQuote_get h hget⟩)
    fun quote hget hblank htask hstatus hindex => ?_
  have hquote := hpass quote hget (eachQuote_get h hget) hblank htask hstatus hindex
  exact ⟨eachQuote_confirm h (h _ _ hget).1 hquote _, hquote⟩

theorem keeps_replaceReservedQuote {input : ReplaceReservedQuoteInput} (h : EachQuote P service)
    (hpass : PassesTo P host now service (.replaceReservedQuote input)) :
    Keeps (EachQuote P) (replaceReservedQuote host now input) service := by
  obtain ⟨hnew, hreleased, hconfirmed, hreserved⟩ := hpass
  simp only [replaceReservedQuote, Keeps, wp_bind, wp_requireQuote, wp_get, wp_ite, wp_throw,
    wp_putQuote, wp_modify]
  refine ⟨fun quote hget => ⟨fun _ => h, fun hexact => ⟨fun _ => h, fun hworkspace => ?_⟩⟩,
    fun _ => h⟩
  have hquote := hreleased quote hget (eachQuote_get h hget) (not_not.mp hexact)
    (not_not.mp hworkspace)
  refine (keeps_buildQuote h hnew).mono (fun successor built hbuilt => ?_) fun _ _ hbuilt => hbuilt
  have hstored : EachQuote P { (built.withQuote (released now quote)) with
      taskIndex := (built.withQuote (released now quote)).taskIndex.erase input.taskId } :=
    eachQuote_congr rfl (eachQuote_withQuote hbuilt hquote)
  have hconfirm : ∀ {s : ProductQuoteService}, EachQuote P s →
      PassesTo P host now s (.confirm { quoteId := successor.quoteId, taskId := input.taskId }) := by
    intro s hs stored hget' hstored' _ _ _ _
    have hid := (hs _ _ hget').1
    simp only at hid
    exact hid ▸ hconfirmed stored hstored'
  refine (keeps_confirm hstored (hconfirm hstored)).mono
    (fun current service' hcurrent => ?_) fun _ _ hthrown => hthrown
  refine keeps_onUsage (fun _ usage => ?_) fun _ usage => eachQuote_congr rfl hcurrent.1
  simp only [wp_pure]
  exact eachQuote_withQuote (eachQuote_congr rfl hcurrent.1) (hreserved current hcurrent.2)

/-- **A call keeps a property of the quotes that passes to every quote it may store.** -/
theorem keeps_perform {call : QuoteCall} (h : EachQuote P service)
    (hpass : PassesTo P host now service call) : EachQuote P (step host service (now, call)) := by
  have hcosts : ∀ costs : MemoryProviderCostSnapshotStore,
      EachQuote P { service with providerCosts := costs } := fun _ => eachQuote_congr rfl h
  have hstore : ∀ {service' : ProductQuoteService}, service'.quotes = service.quotes →
      ∀ {quote}, P quote → EachQuote P (service'.withQuote quote) := fun hsame _ hquote =>
    eachQuote_withQuote (eachQuote_congr hsame h) hquote
  have hkeeps : Keeps (EachQuote P) (perform host now call) service := by
    rw [Keeps]
    cases call with
    | buildQuote input => exact wp_map _ |>.mpr (keeps_buildQuote h hpass)
    | confirm input =>
      exact wp_map _ |>.mpr ((keeps_confirm h hpass).mono (fun _ _ hs => hs.1) fun _ _ hs => hs)
    | reserve input =>
      refine wp_map _ |>.mpr (wp_reserve (fun _ => h) fun quote taskId _ hget _ _ _ _ => ?_)
      exact Wp.of_forall (fun _ usage => ⟨fun _ => hstore rfl (hpass quote hget (eachQuote_get h hget)),
        fun _ => eachQuote_congr rfl h⟩) fun _ usage => eachQuote_congr rfl h
    | replaceReservedQuote input => exact wp_map _ |>.mpr (keeps_replaceReservedQuote h hpass)
    | dispatch input =>
      refine wp_map _ |>.mpr (wp_dispatch (fun _ => hcosts) fun quote _ costs hget => ?_)
      exact ⟨fun _ => hstore rfl (hpass quote hget (eachQuote_get h hget)), fun _ => hcosts costs⟩
    | fallbackDispatch input =>
      refine wp_map _ |>.mpr (wp_fallbackDispatch (fun _ => hcosts) fun quote _ costs hget => ?_)
      exact ⟨fun _ => hstore rfl (hpass quote hget (eachQuote_get h hget)), fun _ => hcosts costs⟩
    | settle input =>
      refine wp_map _ |>.mpr (wp_settle (fun _ => h) (fun _ _ _ _ _ _ _ => h) ?_ ?_)
      · intro quote taskId _ creditCost settlement hget hopen htask husage hcredit hok
        have hstored := hpass quote hget (eachQuote_get h hget) hopen (hasUsage_of htask husage)
        exact wp_settleCredits.mpr (Wp.of_forall (fun _ usage => hstore rfl
          (hstored.1 creditCost settlement hcredit hok)) fun _ usage => eachQuote_congr rfl h)
      · intro quote taskId usage settlement hget hopen htask husage hcredit hok
        have hstored := hpass quote hget (eachQuote_get h hget) hopen (hasUsage_of htask husage)
        exact wp_settleUnits (fun _ => hcosts) fun costs => Wp.of_forall (fun _ _ => hstore rfl
          (hstored.2 usage settlement hcredit hok)) fun _ _ => eachQuote_congr rfl h
    | failAndRefund input =>
      refine wp_map _ |>.mpr (wp_failAndRefund (fun _ => h) (fun _ _ _ _ _ _ _ => h) ?_ ?_ ?_)
      · intro quote taskId _ creditCost contract settlement hget hopen htask husage hcredit
          hcontract hforced hok
        have hstored := hpass quote hget (eachQuote_get h hget) hopen (hasUsage_of htask husage)
        exact wp_settleCredits.mpr (Wp.of_forall (fun _ usage => hstore rfl
          (hstored.1 creditCost contract settlement hcredit hcontract hforced hok))
            fun _ usage => eachQuote_congr rfl h)
      · intro quote taskId _ creditCost hget hopen htask husage hcredit
        have hstored := hpass quote hget (eachQuote_get h hget) hopen (hasUsage_of htask husage)
        exact wp_failCredits.mpr (Wp.of_forall (fun _ usage => hstore rfl
          (hstored.2.1 _ (by rw [hcredit]; rfl))) fun _ usage => eachQuote_congr rfl h)
      · intro quote taskId usage settlement hget hopen htask husage hcredit hok
        have hstored := hpass quote hget (eachQuote_get h hget) hopen (hasUsage_of htask husage)
        exact wp_failUnits.mpr (Wp.of_forall (fun _ _ => hstore rfl
          (hstored.2.2 usage settlement hcredit hok)) fun _ _ => eachQuote_congr rfl h)
  exact wp_final.mp hkeeps

end ProductQuoteService

end MeiyeAgent
