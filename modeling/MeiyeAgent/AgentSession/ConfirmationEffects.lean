import MeiyeAgent.AgentSession.ConfirmationService

/-!
# AgentSession/ConfirmationEffects — what a call can do to the tables

* `Keyed` — the rows stand under their ids as their schemas give them out, and a request is decided
  exactly when it has its decision.
* `CallEffect` — **everything a call can do**, with what the code has checked by then.
* `callEffect` — a call on keyed tables does one of these.
* `keyed_step`, `advances_step` — a call keeps the tables keyed, and every row and decision stays.
-/

namespace MeiyeAgent

open Effect Table Confirmations

variable {host : ConfirmationHost} {s s' : Confirmations}

/-! ## Schemas -/

theorem AgentExecutionConfirmationRequest.trimmed_trimmed
    (request : AgentExecutionConfirmationRequest) : request.trimmed.trimmed = request.trimmed := by
  have hmap (value : Option String) :
      (value.map Text.trim).map Text.trim = value.map Text.trim := by
    cases value with
    | none => rfl
    | some value => exact congrArg some (Text.trim_trim value)
  have href (value : Option AgentRevisionRef) :
      (value.map (·.trimmed)).map (·.trimmed) = value.map (·.trimmed) := by
    cases value with
    | none => rfl
    | some value => exact congrArg some (AgentRevisionRef.trimmed_trimmed value)
  simp only [trimmed, Text.trim_trim, AgentRevisionRef.trimmed_trimmed, hmap, href]

variable {request : AgentExecutionConfirmationRequest}

theorem parseConfirmationRequest_eq_ok {parsed : AgentExecutionConfirmationRequest} :
    parseConfirmationRequest host request = .ok parsed ↔
      request.trimmed.valid host = true ∧ request.trimmed = parsed := by
  rw [parseConfirmationRequest]
  split
  · next h => simp [h]
  · next h => simp [h]

/-- **What a schema gives out it takes again.** -/
theorem parse_parsed {parsed : AgentExecutionConfirmationRequest}
    (h : parseConfirmationRequest host request = .ok parsed) :
    parseConfirmationRequest host parsed = .ok parsed := by
  obtain ⟨hvalid, rfl⟩ := parseConfirmationRequest_eq_ok.mp h
  rw [parseConfirmationRequest_eq_ok, AgentExecutionConfirmationRequest.trimmed_trimmed]
  exact ⟨hvalid, rfl⟩

/-- The schema says nothing of the status. -/
theorem parse_status (h : parseConfirmationRequest host request = .ok request)
    (status : ConfirmationStatus) :
    parseConfirmationRequest host { request with status } = .ok { request with status } := by
  obtain ⟨hvalid, htrimmed⟩ := parseConfirmationRequest_eq_ok.mp h
  refine parseConfirmationRequest_eq_ok.mpr ⟨hvalid, ?_⟩
  conv_rhs => rw [← htrimmed]
  rfl

variable {decision : PlanConfirmationDecision}

theorem parseConfirmationDecision_eq_ok {parsed : PlanConfirmationDecision}
    (h : parseConfirmationDecision host decision = .ok parsed) : parsed = { decision with
      decisionId := Text.trim decision.decisionId
      requestId := Text.trim decision.requestId
      actorId := Text.trim decision.actorId } ∧
    parseConfirmationDecision host parsed = .ok parsed := by
  rw [parseConfirmationDecision] at h
  split at h
  · next hvalid =>
    obtain rfl := pure_eq_ok.mp h
    refine ⟨rfl, ?_⟩
    simp only [parseConfirmationDecision, Text.trim_trim]
    rw [if_pos hvalid]
    rfl
  · exact (throw_ne_ok.mp h).elim

/-! ## Keyed tables -/

/-- **The rows stand under their ids**, and a decided request has its decision. -/
structure Keyed (host : ConfirmationHost) (s : Confirmations) : Prop where
  request : ∀ id stored, s.requests.get? id = some stored → stored.request.requestId = id ∧
    parseConfirmationRequest host stored.request = .ok stored.request
  decision : ∀ id decision, s.decisionsById.get? id = some decision → decision.decisionId = id ∧
    s.decisionsByRequest.get? decision.requestId = some id ∧
    parseConfirmationDecision host decision = .ok decision
  listed : ∀ requestId id, s.decisionsByRequest.get? requestId = some id →
    ∃ decision, s.decisionsById.get? id = some decision ∧ decision.requestId = requestId
  decided : ∀ id, (s.getDecision id).isSome = true ↔
    ∃ stored, s.requests.get? id = some stored ∧ stored.request.status = .decided

variable {workspaceId id : String} {stored : StoredConfirmationRequest}

theorem getOwned_eq_some : s.getOwned workspaceId id = some stored ↔
      s.requests.get? id = some stored ∧ stored.request.workspaceId = workspaceId := by
  rw [getOwned, Option.filter_eq_some_iff, decide_eq_true_eq]

/-- A request's decision is the one of its id. -/
theorem Keyed.getDecision (h : Keyed host s) {requestId : String} :
    s.getDecision requestId = some decision ↔
      s.decisionsById.get? decision.decisionId = some decision ∧
        decision.requestId = requestId := by
  rw [Confirmations.getDecision, Option.bind_eq_some_iff]
  constructor
  · rintro ⟨id, hlisted, hdecision⟩
    obtain ⟨found, hfound, hrequest⟩ := h.listed requestId id hlisted
    obtain rfl := Option.some.inj (hdecision.symm.trans hfound)
    rw [(h.decision id decision hdecision).1]
    exact ⟨hdecision, hrequest⟩
  · rintro ⟨hdecision, rfl⟩
    exact ⟨decision.decisionId, (h.decision _ decision hdecision).2.1, hdecision⟩

/-- The row with another status. -/
def StoredConfirmationRequest.marked (stored : StoredConfirmationRequest)
    (status : ConfirmationStatus) : StoredConfirmationRequest :=
  { stored with request := { stored.request with status } }

/-- The row with another ledger. -/
def Confirmations.withLedger (s : Confirmations) (ledger : MemoryCreditLedger) : Confirmations :=
  { s with ledger }

/-- No row has the reservation key. -/
def Confirmations.NewHold (s : Confirmations) (reservation : String) : Prop :=
  ∀ row ∈ s.requests.values, row.request.reservationIdempotencyKey ≠ reservation

/-! ## What a call can do -/

/-- The hold of a row was given back, if it has one. -/
inductive Refunds (host : ConfirmationHost) (stored : StoredConfirmationRequest)
    (ledger : MemoryCreditLedger) : MemoryCreditLedger → Prop
  | none (h : stored.projection.reservedCredits ≤ 0) : Refunds host stored ledger ledger
  | whole (input : RefundUsageInput) (refunds : List CreditLotTransaction)
      (ledger' : MemoryCreditLedger) (hworkspace : input.workspaceId = stored.request.workspaceId)
      (hoperation : input.usageOperationId = stored.request.reservationIdempotencyKey)
      (hcredits : input.credits = .none)
      (hrefund : refundUsageOperation host.toHost input ledger = .ok refunds ledger') :
      Refunds host stored ledger ledger'

/-- The replaced hold was given back, if there is one: its request is confirmed, and nobody
succeeds it yet. -/
inductive Releases (host : ConfirmationHost) (s : Confirmations)
    (input : CreateExecutionConfirmationInput) : MemoryCreditLedger → Prop
  | none (h : input.replaced = .none) : Releases host s input s.ledger
  | whole (predecessorId : String) (predecessor : StoredConfirmationRequest)
      (refund : RefundUsageInput) (refunds : List CreditLotTransaction)
      (ledger : MemoryCreditLedger)
      (hreplaced : input.replaced =
        some (predecessorId, predecessor.request.reservationIdempotencyKey))
      (hpredecessor : s.getOwned input.workspaceId predecessorId = some predecessor)
      (hconfirmed : (s.getDecision predecessorId).map (·.decision) = some .confirmed)
      (hworkspace : refund.workspaceId = input.workspaceId)
      (hoperation : refund.usageOperationId = predecessor.request.reservationIdempotencyKey)
      (hcredits : refund.credits = .none)
      (hrefund : refundUsageOperation host.toHost refund s.ledger = .ok refunds ledger) :
      Releases host s input ledger

/-- The credits of a new request were held, if it needs any. -/
inductive Reserves (host : ConfirmationHost) (s : Confirmations)
    (input : CreateExecutionConfirmationInput) : MemoryCreditLedger → Prop
  | none (h : input.requiresReserve = false) : Reserves host s input s.ledger
  | held (released ledger : MemoryCreditLedger) (usage : ConsumeCreditsInput)
      (charged : List CreditLotTransaction) (h : input.requiresReserve = true)
      (hreleases : Releases host s input released)
      (hworkspace : usage.workspaceId = input.workspaceId)
      (hoperation : usage.transactionId = input.reservationIdempotencyKey)
      (hcredits : usage.credits = input.creditCost)
      (hconsume : consume host.toHost usage released = .ok charged ledger) :
      Reserves host s input ledger

/-- **Everything a call can do to the tables.** -/
inductive CallEffect (host : ConfirmationHost) (s : Confirmations) :
    ConfirmationCall → Confirmations → Prop
  | kept (call : ConfirmationCall)
      (authorities : Option (OrderedMap String PendingConfirmationAuthority)) :
      CallEffect host s call { s with authorities }
  | upkeep (upkeep : CreditUpkeep) :
      CallEffect host s (.upkeep upkeep) (s.withLedger (upkeep.call.step host.toHost s.ledger))
  | admitted (input : CreateExecutionConfirmationInput) (stored : StoredConfirmationRequest)
      (ledger : MemoryCreditLedger)
      (authorities : Option (OrderedMap String PendingConfirmationAuthority))
      (hparse : parseConfirmationRequest host input.request = .ok stored.request)
      (hprojection : stored.projection = input.projection)
      (hnew : s.requests.get? stored.request.requestId = none)
      (hunique : s.NewHold stored.request.reservationIdempotencyKey)
      (hreserves : Reserves host s input ledger) :
      CallEffect host s (.createRequest input)
        { s with requests := s.requests.set stored.request.requestId stored, ledger, authorities }
  | twin (input : CreateExecutionConfirmationInput) (ledger : MemoryCreditLedger)
      (authorities : Option (OrderedMap String PendingConfirmationAuthority))
      (huntrimmed : input.request.trimmed ≠ input.request) :
      CallEffect host s (.createRequest input) { s with ledger, authorities }
  | ranOut (call : ConfirmationCall) (id : String) (stored : StoredConfirmationRequest)
      (ledger : MemoryCreditLedger) (hstored : s.requests.get? id = some stored)
      (hpending : stored.request.status = .pending)
      (hrefunds : Refunds host stored s.ledger ledger) :
      CallEffect host s call ((s.withLedger ledger).saveRequest id (stored.marked .expired))
  | refunded (call : ConfirmationCall) (id : String) (stored : StoredConfirmationRequest)
      (ledger : MemoryCreditLedger) (hstored : s.requests.get? id = some stored)
      (hclosed : stored.request.status = .expired ∨
        (s.getDecision id).map (·.decision) = some .rejected)
      (hrefunds : Refunds host stored s.ledger ledger) :
      CallEffect host s call (s.withLedger ledger)
  | decided (input : DecideExecutionConfirmationInput) (now : TimeValue)
      (stored : StoredConfirmationRequest) (decision : PlanConfirmationDecision)
      (ledger : MemoryCreditLedger)
      (hstored : s.requests.get? input.requestId = some stored)
      (hpending : stored.request.status = .pending)
      (hintime : holdRunOut host (isoText now) stored = false)
      (hparse : parseConfirmationDecision host decision = .ok decision)
      (hrequest : decision.requestId = input.requestId)
      (hnew : s.decisionsById.get? decision.decisionId = none)
      (hrefunds : decision.decision = .confirmed ∧ ledger = s.ledger ∨
        decision.decision = .rejected ∧ Refunds host stored s.ledger ledger) :
      CallEffect host s (.decide input now) {
        requests := s.requests.set input.requestId (stored.marked .decided)
        decisionsById := s.decisionsById.set decision.decisionId decision
        decisionsByRequest := s.decisionsByRequest.set decision.requestId decision.decisionId
        ledger
        authorities := s.authorities }

theorem CallEffect.refl (call : ConfirmationCall) : CallEffect host s call s :=
  .kept call s.authorities

/-! ## One operation at a time -/

@[simp] theorem wp_ledgerCall {α : Type} {x : LedgerM α} {Q : α → Confirmations → Prop}
    {E : ConfirmationThrown → Confirmations → Prop} :
    Wp (ledgerCall x) s Q E ↔ Wp x s.ledger (fun a ledger => Q a (s.withLedger ledger))
      (fun thrown ledger => E (.ledger thrown) (s.withLedger ledger)) := by
  simp only [Wp, ledgerCall, withLedger]
  cases x s.ledger <;> rfl

/-- What an operation of the ledger returned. -/
theorem wp_ledgerCall_ok {α : Type} {x : LedgerM α} {Q : α → Confirmations → Prop}
    (h : ∀ a ledger, x s.ledger = .ok a ledger → Q a (s.withLedger ledger)) :
    Wp (ledgerCall x) s Q (fun _ _ => True) := by
  rw [wp_ledgerCall]
  unfold Wp
  cases hx : x s.ledger with
  | ok a ledger => exact h a ledger hx
  | error => trivial

/-- **The status of a pending row is set.** -/
theorem markOwnedStatus_spec {status : ConfirmationStatus}
    (hstored : s.getOwned workspaceId id = some stored)
    (hparse : parseConfirmationRequest host stored.request = .ok stored.request) :
    Wp (markOwnedStatus host workspaceId id status) s (fun _ s' =>
      stored.request.status = .pending ∧ s' = s.saveRequest id (stored.marked status))
      (fun _ _ => True) := by
  rw [markOwnedStatus, wp_bind, wp_get]
  simp only [hstored, wp_bind, wp_ite, wp_throw]
  refine ⟨fun _ => trivial, fun hpending => ?_⟩
  rw [wp_check_ok (parse_status hparse status), wp_set]
  exact ⟨not_not.mp hpending, rfl⟩

/-- **A decision is the one appended before, or the first of its request.** -/
theorem append_spec (hkeyed : Keyed host s) : Wp (append host decision) s (fun appended s' =>
      parseConfirmationDecision host decision = .ok appended ∧
        (s.decisionsById.get? appended.decisionId = some appended ∧ s' = s ∨
          s.decisionsById.get? appended.decisionId = none ∧
            s.decisionsByRequest.get? appended.requestId = none ∧
            s' = { s with
              decisionsById := s.decisionsById.set appended.decisionId appended
              decisionsByRequest :=
                s.decisionsByRequest.set appended.requestId appended.decisionId }))
      (fun _ _ => True) := by
  simp only [append, wp_bind, wp_check, wp_get]
  refine ⟨fun parsed hparse => ?_, fun _ _ => trivial⟩
  split
  · next existing hexisting =>
    simp only [wp_ite, wp_pure, wp_throw]
    refine ⟨fun hsame => ?_, fun _ => trivial⟩
    subst hsame
    exact ⟨hparse, .inl ⟨hexisting, trivial⟩⟩
  · next hnone =>
    split
    · next existingRequestDecision hlisted =>
      simp only [wp_ite, wp_pure, wp_throw]
      refine ⟨fun hsame => ?_, fun _ => trivial⟩
      obtain ⟨hid, -⟩ := hkeyed.decision _ _ hsame
      rw [hid, hsame] at hnone
      cases hnone
    · next hnoRequest =>
      simp only [wp_bind, wp_set, wp_pure]
      exact ⟨hparse, .inr ⟨hnone, hnoRequest, trivial⟩⟩

/-- **Giving a hold back moves the ledger alone.** -/
theorem refundHold_spec {actorId createdAt : String} :
    Wp (refundHold host stored actorId createdAt) s (fun _ s' => ∃ ledger,
      Refunds host stored s.ledger ledger ∧ s' = s.withLedger ledger) (fun _ _ => True) := by
  simp only [refundHold, wp_ite, wp_pure, wp_bind]
  refine ⟨fun hnone => ⟨s.ledger, .none hnone, rfl⟩, fun _ => wp_ledgerCall_ok fun refunds ledger hrefund => ?_⟩
  exact ⟨ledger, .whole _ refunds ledger rfl rfl rfl hrefund, rfl⟩

variable {input : CreateExecutionConfirmationInput}

theorem checkPredecessor_spec {predecessorId reservation : String} :
    Wp (checkPredecessor input predecessorId reservation) s (fun predecessor s' => s' = s ∧
      s.getOwned input.workspaceId predecessorId = some predecessor ∧
      (s.getDecision predecessorId).map (·.decision) = some .confirmed ∧
      predecessor.request.reservationIdempotencyKey = reservation) (fun _ _ => True) := by
  simp only [checkPredecessor, wp_bind, wp_get]
  split
  · rw [wp_throw]
    trivial
  · next predecessor hfound =>
    obtain ⟨howned, hexact⟩ := Option.filter_eq_some_iff.mp hfound
    obtain ⟨-, hconfirmed, -, -, -, hreservation⟩ := of_decide_eq_true hexact
    split
    · rw [wp_throw]
      trivial
    · rw [wp_pure]
      exact ⟨rfl, howned, hconfirmed, hreservation⟩

theorem runHook_spec {hook : Option (Except ConfirmationThrown Unit)} :
    Wp (runHook hook) s (fun _ s' => s' = s) (fun _ _ => True) := by
  cases hook with
  | none => rw [runHook, wp_pure]
  | some answer =>
    rw [runHook, wp_check]
    exact ⟨fun _ _ => rfl, fun _ _ => trivial⟩

theorem replaceProductReservation_spec :
    Wp (replaceProductReservation input) s (fun _ s' => s' = s) (fun _ _ => True) := by
  rw [replaceProductReservation, wp_ite, wp_pure]
  refine ⟨fun _ => ?_, fun _ => rfl⟩
  split
  · rw [wp_throw]
    trivial
  · rw [wp_check]
    exact ⟨fun _ _ => rfl, fun _ _ => trivial⟩

/-- What the price needs to know of the replaced hold, and what is done with it afterwards. -/
theorem releases_spec (host : ConfirmationHost) (s : Confirmations)
    (input : CreateExecutionConfirmationInput) :
    Wp (replacedCredits input) s (fun _ s' => s' = s ∧
      Wp (releaseReplaced host input) s (fun _ s' => ∃ released,
        Releases host s input released ∧ s' = s.withLedger released) (fun _ _ => True))
      (fun _ _ => True) := by
  rw [replacedCredits, releaseReplaced]
  cases hreplaced : input.replaced with
  | none =>
    simp only [wp_pure]
    exact ⟨trivial, s.ledger, .none hreplaced, rfl⟩
  | some replaced =>
    obtain ⟨predecessorId, reservation⟩ := replaced
    simp only [wp_bind, wp_pure]
    refine checkPredecessor_spec.mono (fun predecessor s' h => ?_) fun _ _ _ => trivial
    obtain ⟨rfl, howned, hconfirmed, rfl⟩ := h
    refine ⟨rfl, wp_ledgerCall_ok fun refunds ledger hrefund => ?_⟩
    exact ⟨ledger, .whole predecessorId predecessor _ refunds ledger hreplaced howned hconfirmed
      rfl rfl rfl hrefund, rfl⟩

/-- **Holding the credits moves the ledger alone.** -/
theorem reserve_spec (hreserve : input.requiresReserve = true) :
    Wp (reserve host input) s (fun _ s' => ∃ ledger, Reserves host s input ledger ∧
      s' = s.withLedger ledger) (fun _ _ => True) := by
  simp only [reserve, wp_bind, wp_get, wp_ite, wp_throw, wp_pure]
  refine (releases_spec host s input).mono (fun replaced s' h => ?_) fun _ _ _ => trivial
  obtain ⟨rfl, hreleases⟩ := h
  refine ⟨fun _ => trivial, fun _ => replaceProductReservation_spec.mono (fun _ s' h => ?_)
    fun _ _ _ => trivial⟩
  subst h
  refine hreleases.mono (fun _ s' h => ?_) fun _ _ _ => trivial
  obtain ⟨released, hreleased, rfl⟩ := h
  refine wp_ledgerCall_ok fun charged ledger hconsume => ?_
  exact ⟨ledger, .held released ledger _ charged hreserve hreleased rfl rfl rfl hconsume, rfl⟩

/-- **A pending row is written, unless the request or the campaign's work has one.** -/
theorem savePending_spec {projection : ConfirmationRequestProjectionFacts}
    (hparse : parseConfirmationRequest host request = .ok request) :
    Wp (savePending host ⟨request, projection⟩) s (fun stored s' =>
      stored = ⟨request, projection⟩ ∧ s.requests.get? request.requestId = none ∧
          s.NewHold request.reservationIdempotencyKey ∧
          s' = s.saveRequest request.requestId stored ∨
        s' = s ∧ ((s.requests.get? request.requestId).isSome = true ∨
          (campaignTwin s request).isSome = true)) (fun _ _ => True) := by
  rw [savePending, wp_bind, wp_check_ok hparse]
  simp only [wp_bind, wp_ite, wp_throw, wp_get]
  refine ⟨fun _ => trivial, fun _ => ?_⟩
  split
  · next existing hexisting =>
    simp only [wp_ite, wp_pure, wp_throw]
    exact ⟨fun _ => .inr ⟨trivial, .inl (by simp [hexisting])⟩, fun _ => trivial⟩
  · next hnone =>
    split
    · rw [wp_throw]
      trivial
    · next twin _ htwin =>
      simp only [wp_ite, wp_pure, wp_throw]
      exact ⟨fun _ => .inr ⟨trivial, .inr (by simp [htwin])⟩, fun _ => trivial⟩
    · simp only [insertPending, wp_bind, wp_get, wp_ite, wp_throw, wp_set, wp_pure]
      refine ⟨fun _ => trivial, fun hunique => .inl ⟨trivial, hnone, fun row hrow hsame => ?_, trivial⟩⟩
      exact hunique (List.any_eq_true.mpr ⟨row, hrow, decide_eq_true hsame⟩)

/-! ## Every call -/

theorem putCurrent_spec {authority : PendingConfirmationAuthority} :
    Wp (putCurrent authority) s (fun _ s' => ∃ authorities, s' = { s with authorities })
      (fun _ _ => True) := by
  simp only [putCurrent, wp_bind, wp_get]
  split
  · rw [wp_pure]
    exact ⟨s.authorities, rfl⟩
  · split
    · rw [wp_set]
      exact ⟨_, rfl⟩
    · simp only [wp_bind, wp_ite, wp_throw, wp_set, wp_pure]
      exact ⟨fun _ => trivial, fun _ => ⟨fun _ => trivial, fun _ =>
        ⟨fun _ => ⟨_, rfl⟩, fun _ => ⟨s.authorities, rfl⟩⟩⟩⟩

theorem putAuthority_spec :
    Wp (putAuthority input) s (fun _ s' => ∃ authorities, s' = { s with authorities })
      (fun _ _ => True) := by
  rw [putAuthority.eq_def]
  split
  · rw [wp_pure]
    exact ⟨s.authorities, rfl⟩
  · simp only [wp_bind, wp_ite, wp_throw]
    exact ⟨fun _ => trivial, fun _ => putCurrent_spec⟩

theorem checkAuthority_spec :
    Wp (checkAuthority input) s (fun _ s' => s' = s) (fun _ _ => True) := by
  simp only [checkAuthority, wp_bind, wp_get]
  split
  · rw [wp_pure]
  · simp only [wp_bind, wp_ite, wp_throw]
    refine ⟨fun _ => trivial, fun _ => ?_⟩
    split
    · rw [wp_throw]
      trivial
    · simp only [wp_ite, wp_throw, wp_pure]
      exact ⟨fun _ => trivial, fun _ => trivial⟩

theorem answerStored_spec :
    Wp (answerStored host input stored) s (fun _ s' => s' = s) (fun _ _ => True) := by
  simp only [answerStored, wp_bind, wp_get, wp_pure]
  exact runHook_spec

theorem reenter_spec {existing : StoredConfirmationRequest} :
    Wp (reenter host input request existing) s (fun _ s' => s' = s) (fun _ _ => True) := by
  simp only [reenter, wp_bind, wp_ite, wp_throw, wp_get]
  exact ⟨fun _ => trivial, fun _ => ⟨fun _ => trivial, fun _ => answerStored_spec⟩⟩

/-- **A new request is admitted**, or one under a text the schemas would trim is answered. -/
theorem admit_spec (hparse : parseConfirmationRequest host input.request = .ok request) :
    Wp (admitRequest host input request) s (fun _ s' => ∃ ledger, Reserves host s input ledger ∧
      (s.requests.get? request.requestId = none ∧ s.NewHold request.reservationIdempotencyKey ∧
          s' = (s.withLedger ledger).saveRequest request.requestId ⟨request, input.projection⟩ ∨
        input.request.trimmed ≠ input.request ∧ s' = s.withLedger ledger)) (fun _ _ => True) := by
  simp only [admitRequest, wp_bind, wp_get, wp_ite, wp_throw]
  refine ⟨fun _ => trivial, fun hfree => ?_⟩
  have hfree := Option.not_isSome_iff_eq_none.mp hfree
  simp only [checkCampaignWork, wp_bind, wp_get]
  split
  · next hnoTwin =>
    -- the row under its trimmed id, and the campaign's twin, are new finds only after a trim
    have hsave (ledger : MemoryCreditLedger) (hreserves : Reserves host s input ledger) :
        Wp (savePending host ⟨request, input.projection⟩) (s.withLedger ledger) (fun stored s' =>
          Wp (answerStored host input stored) s' (fun _ s' => ∃ ledger,
            Reserves host s input ledger ∧ (s.requests.get? request.requestId = none ∧
              s.NewHold request.reservationIdempotencyKey ∧ s' = (s.withLedger ledger).saveRequest request.requestId
                ⟨request, input.projection⟩ ∨
              input.request.trimmed ≠ input.request ∧ s' = s.withLedger ledger))
            (fun _ _ => True)) (fun _ _ => True) := by
      refine (savePending_spec (parse_parsed hparse)).mono (fun stored s' h => ?_)
        fun _ _ _ => trivial
      refine answerStored_spec.mono (fun _ s'' hs'' => ⟨ledger, hreserves, ?_⟩) fun _ _ _ => trivial
      rcases h with ⟨rfl, hnew, hunique, rfl⟩ | ⟨rfl, hfound⟩
      · exact .inl ⟨hnew, hunique, hs''⟩
      · refine .inr ⟨fun htrimmed => ?_, hs''⟩
        have hsame : request = input.request :=
          (parseConfirmationRequest_eq_ok.mp hparse).2.symm.trans htrimmed
        rcases hfound with hid | htwin
        · rw [hsame] at hid
          cases (congrArg Option.isSome hfree).symm.trans hid
        · rw [hsame] at htwin
          cases (congrArg Option.isSome hnoTwin).symm.trans htwin
    rw [wp_pure]
    refine ⟨fun hreserve => ?_, fun hnone => hsave s.ledger (.none (Bool.eq_false_iff.mpr hnone))⟩
    refine (reserve_spec hreserve).mono (fun _ s' h => ?_) fun _ _ _ => trivial
    obtain ⟨ledger, hreserves, rfl⟩ := h
    exact hsave ledger hreserves
  · rw [wp_throw]
    trivial

theorem Reserves.of_authorities {ledger : MemoryCreditLedger}
    {authorities : Option (OrderedMap String PendingConfirmationAuthority)}
    (h : Reserves host { s with authorities } input ledger) : Reserves host s input ledger := by
  cases h with
  | none h => exact .none h
  | held released _ usage charged h hreleases h1 h2 h3 hconsume =>
    refine .held released ledger usage charged h ?_ h1 h2 h3 hconsume
    cases hreleases with
    | none h => exact .none h
    | whole predecessorId predecessor refund refunds _ h1 h2 h3 h4 h5 h6 h7 =>
      exact .whole predecessorId predecessor refund refunds _ h1 h2 h3 h4 h5 h6 h7

/-- **What creating a request does.** -/
theorem createRequest_spec :
    Wp (createRequest host input) s (fun _ => CallEffect host s (.createRequest input))
      (fun _ s' => s' = s) := by
  simp only [createRequest, wp_bind, wp_ite, wp_throw, wp_check]
  refine ⟨fun _ => trivial, fun _ => ⟨fun request hparse => ?_, fun _ _ => trivial⟩⟩
  simp only [wp_transaction, wp_bind, wp_get]
  refine putAuthority_spec.mono (fun _ s₁ h => ?_) fun _ _ _ => trivial
  obtain ⟨authorities, rfl⟩ := h
  refine checkAuthority_spec.mono (fun _ s₁ h => ?_) fun _ _ _ => trivial
  subst h
  split
  · refine reenter_spec.mono (fun _ s' h => ?_) fun _ _ _ => trivial
    rw [h]
    exact .kept _ authorities
  · refine (admit_spec hparse).mono (fun _ s' h => ?_) fun _ _ _ => trivial
    obtain ⟨ledger, hreserves, ⟨hnew, hunique, rfl⟩ | ⟨huntrimmed, rfl⟩⟩ := h
    · exact .admitted input ⟨request, input.projection⟩ ledger authorities hparse rfl hnew hunique
        hreserves.of_authorities
    · exact .twin input ledger authorities huntrimmed

/-! ### Decisions -/

/-- **The result is the caller's own**: its decision, on a request of its workspace. -/
structure Own (input : DecideExecutionConfirmationInput)
    (result : DecideExecutionConfirmationResult) : Prop where
  decisionId : result.decision.decisionId = Text.trim input.decisionId
  actorId : result.decision.actorId = Text.trim input.actorId
  decision : result.decision.decision = input.decision
  decisionRequest : result.decision.requestId = input.requestId
  request : result.request.requestId = input.requestId
  workspace : result.request.workspaceId = input.workspaceId

/-- The id of a stored request has no blanks around it. -/
theorem Keyed.trim_id (h : Keyed host s) (hstored : s.requests.get? id = some stored) :
    Text.trim id = id := by
  obtain ⟨hid, hparse⟩ := h.request id stored hstored
  have htrimmed := (parseConfirmationRequest_eq_ok.mp hparse).2
  rw [← hid]
  exact congrArg AgentExecutionConfirmationRequest.requestId htrimmed

variable {candidate : PlanConfirmationDecision}

theorem priorDecision_spec {input : DecideExecutionConfirmationInput} :
    Wp (priorDecision input candidate) s (fun prior s' => s' = s ∧
      prior = s.decisionsById.get? input.decisionId ∧
      ∀ decision, prior = some decision → decision.requestId = candidate.requestId ∧
        decision.actorId = candidate.actorId ∧ decision.decision = candidate.decision)
      (fun _ _ => True) := by
  simp only [priorDecision, wp_bind, wp_get, wp_ite, wp_throw, wp_pure]
  refine ⟨fun _ => trivial, fun hsame => ⟨trivial, trivial, fun decision hdecision => ?_⟩⟩
  simpa [hdecision] using hsame

/-- What the caller decides: a decision of its own words, the first of its request or the one
made before. -/
theorem appendOwn_spec (hkeyed : Keyed host s) {input : DecideExecutionConfirmationInput}
    {decidedAt : String} (htrim : Text.trim input.requestId = input.requestId)
    (hcandidate : parseConfirmationDecision host (input.candidate decidedAt) = .ok candidate) :
    Wp (do let prior ← priorDecision input candidate; append host (prior.getD candidate)) s
      (fun appended s' => parseConfirmationDecision host appended = .ok appended ∧
        appended.decisionId = Text.trim input.decisionId ∧
        appended.actorId = Text.trim input.actorId ∧ appended.decision = input.decision ∧
        appended.requestId = input.requestId ∧
        (s.decisionsById.get? appended.decisionId = some appended ∧ s' = s ∨
          s.decisionsById.get? appended.decisionId = none ∧
            s.decisionsByRequest.get? appended.requestId = none ∧
            s' = { s with
              decisionsById := s.decisionsById.set appended.decisionId appended
              decisionsByRequest :=
                s.decisionsByRequest.set appended.requestId appended.decisionId }))
      (fun _ _ => True) := by
  rw [wp_bind]
  refine priorDecision_spec.mono (fun prior s' h => ?_) fun _ _ _ => trivial
  obtain ⟨rfl, hprior, hsame⟩ := h
  obtain ⟨hparsed, hfixed⟩ := parseConfirmationDecision_eq_ok hcandidate
  refine (append_spec hkeyed).mono (fun appended s' h => ?_) fun _ _ _ => trivial
  obtain ⟨happended, heffect⟩ := h
  cases prior with
  | none =>
    obtain rfl := Except.ok.inj (hfixed.symm.trans happended)
    refine ⟨hfixed, ?_, ?_, ?_, ?_, heffect⟩
    · rw [hparsed, DecideExecutionConfirmationInput.candidate]
    · rw [hparsed, DecideExecutionConfirmationInput.candidate]
    · rw [hparsed, DecideExecutionConfirmationInput.candidate]
    · rw [hparsed, DecideExecutionConfirmationInput.candidate]
      exact htrim
  | some decision =>
    obtain ⟨hrequest, hactor, hdecision⟩ := hsame decision rfl
    obtain ⟨hid, -, hown⟩ := hkeyed.decision _ _ hprior.symm
    obtain rfl := Except.ok.inj (hown.symm.trans happended)
    obtain ⟨hself, -⟩ := parseConfirmationDecision_eq_ok hown
    have hidTrim : Text.trim decision.decisionId = decision.decisionId :=
      (congrArg PlanConfirmationDecision.decisionId hself).symm
    refine ⟨hown, ?_, ?_, ?_, ?_, heffect⟩
    · rw [← hid, hidTrim]
    · rw [hactor, hparsed, DecideExecutionConfirmationInput.candidate]
    · rw [hdecision, hparsed, DecideExecutionConfirmationInput.candidate]
    · rw [hrequest, hparsed, DecideExecutionConfirmationInput.candidate]
      exact htrim

theorem mem_decided (hkeyed : Keyed host s) (hstored : s.requests.get? id = some stored) :
    stored.request.status = .decided ↔ (s.getDecision id).isSome = true := by
  rw [hkeyed.decided]
  constructor
  · exact fun h => ⟨stored, hstored, h⟩
  · rintro ⟨found, hfound, h⟩
    rwa [Option.some.inj (hstored.symm.trans hfound)]

/-- The state a decision leaves before its refund. -/
def Confirmations.withDecision (s : Confirmations) (id : String)
    (stored : StoredConfirmationRequest) (decision : PlanConfirmationDecision) : Confirmations :=
  { s with
    requests := s.requests.set id (stored.marked .decided)
    decisionsById := s.decisionsById.set decision.decisionId decision
    decisionsByRequest := s.decisionsByRequest.set decision.requestId decision.decisionId }

/-- A decision of the caller's words stands: it stood before, or it has just been made. -/
structure Stands (host : ConfirmationHost) (s : Confirmations)
    (input : DecideExecutionConfirmationInput) (stored : StoredConfirmationRequest)
    (made : PlanConfirmationDecision) (s' : Confirmations) : Prop where
  parse : parseConfirmationDecision host made = .ok made
  decisionId : made.decisionId = Text.trim input.decisionId
  actorId : made.actorId = Text.trim input.actorId
  decision : made.decision = input.decision
  request : made.requestId = input.requestId
  written : s.getDecision input.requestId = some made ∧ s' = s ∨
    stored.request.status = .pending ∧ s.decisionsById.get? made.decisionId = none ∧
      s' = s.withDecision input.requestId stored made

/-- The decision is appended, and a pending request marked with it. -/
theorem appendOpen_spec (hkeyed : Keyed host s) {input : DecideExecutionConfirmationInput}
    {decidedAt : String} (hstored : s.getOwned input.workspaceId input.requestId = some stored)
    (hopen : stored.request.status ≠ .expired)
    (hcandidate : parseConfirmationDecision host (input.candidate decidedAt) = .ok candidate) :
    Wp (appendOpen host input candidate stored) s (Stands host s input stored)
      (fun _ _ => True) := by
  have hget := (getOwned_eq_some.mp hstored).1
  have happend := appendOwn_spec hkeyed (hkeyed.trim_id hget) hcandidate
  rw [wp_bind] at happend
  rw [appendOpen, wp_bind]
  refine happend.mono (fun prior s' h => ?_) fun _ _ _ => trivial
  rw [wp_bind]
  refine h.mono (fun appended s' h => ?_) fun _ _ _ => trivial
  obtain ⟨hparse, hid, hactor, hdecision, hrequest, ⟨hold, rfl⟩ | ⟨hnew, hfree, hs'⟩⟩ := h
  · have hdecided : s'.getDecision input.requestId = some appended :=
      hkeyed.getDecision.mpr ⟨hold, hrequest⟩
    have hstatus := (mem_decided hkeyed hget).mpr (by rw [hdecided]; rfl)
    dsimp only
    rw [wp_ite, wp_pure]
    exact ⟨fun hpending => (nomatch hpending.symm.trans hstatus), fun _ =>
      ⟨hparse, hid, hactor, hdecision, hrequest, .inl ⟨hdecided, rfl⟩⟩⟩
  · have hpending : stored.request.status = .pending := by
      have hnone : ¬ stored.request.status = .decided := by
        rw [mem_decided hkeyed hget, Confirmations.getDecision, ← hrequest, hfree]
        nofun
      revert hopen hnone
      cases stored.request.status <;> simp
    dsimp only
    rw [wp_ite, wp_bind]
    refine ⟨fun _ => ?_, fun hnot => absurd hpending hnot⟩
    have hstored' : s'.getOwned input.workspaceId input.requestId = some stored := hs' ▸ hstored
    refine (markOwnedStatus_spec hstored' (hkeyed.request _ _ hget).2).mono (fun _ s'' h => ?_)
      fun _ _ _ => trivial
    obtain ⟨-, rfl⟩ := h
    rw [wp_pure, hs']
    exact ⟨hparse, hid, hactor, hdecision, hrequest, .inr ⟨hpending, hnew, rfl⟩⟩

/-- **An open request is decided in the caller's words**, and a rejection gives its hold back. -/
theorem decideOpen_spec (hkeyed : Keyed host s) {input : DecideExecutionConfirmationInput}
    {serverNow : String} (hstored : s.getOwned input.workspaceId input.requestId = some stored)
    (hopen : stored.request.status ≠ .expired) :
    Wp (decideOpen host input serverNow stored) s (fun value s' => Own input value ∧
      ∃ s₁ ledger, Stands host s input stored value.decision s₁ ∧
        (value.decision.decision = .confirmed ∧ ledger = s₁.ledger ∨
          value.decision.decision = .rejected ∧ Refunds host stored s₁.ledger ledger) ∧
        s' = s₁.withLedger ledger) (fun _ _ => True) := by
  have hget := (getOwned_eq_some.mp hstored).1
  simp only [decideOpen, wp_bind, wp_check]
  refine ⟨fun candidate hcandidate => ?_, fun _ _ => trivial⟩
  refine (appendOpen_spec hkeyed hstored hopen hcandidate).mono (fun made s₁ hstands => ?_)
    fun _ _ _ => trivial
  -- the row keeps its workspace and its id, whatever its status
  obtain ⟨status, hrow⟩ : ∃ status, s₁.getOwned input.workspaceId input.requestId =
      some (stored.marked status) := by
    rcases hstands.written with ⟨-, rfl⟩ | ⟨-, -, rfl⟩
    · exact ⟨stored.request.status, hstored⟩
    · exact ⟨.decided, getOwned_eq_some.mpr ⟨OrderedMap.get?_set_self,
        (getOwned_eq_some.mp hstored).2⟩⟩
  have hown (ledger : MemoryCreditLedger) (refunded : Int) (message : Option String) :
      Own input {
        decision := made
        request := (((s₁.withLedger ledger).getOwned input.workspaceId input.requestId).map
          (·.request)).getD { stored.request with status := .decided }
        merchantMessage := message
        refundedCredits := refunded } := by
    have hrow' : (s₁.withLedger ledger).getOwned input.workspaceId input.requestId =
        some (stored.marked status) := hrow
    simp only [hrow', Option.map_some, Option.getD_some]
    exact ⟨hstands.decisionId, hstands.actorId, hstands.decision, hstands.request,
      (hkeyed.request _ _ hget).1, (getOwned_eq_some.mp hstored).2⟩
  cases hdecision : made.decision with
  | confirmed =>
    simp only [wp_bind, wp_pure, wp_get]
    exact ⟨hown s₁.ledger _ _, s₁, s₁.ledger, hstands, .inl ⟨hdecision, rfl⟩, rfl⟩
  | rejected =>
    simp only [wp_bind, wp_pure, wp_get]
    refine refundHold_spec.mono (fun refunded s' h => ?_) fun _ _ _ => trivial
    obtain ⟨ledger, hrefunds, rfl⟩ := h
    exact ⟨hown ledger _ _, s₁, ledger, hstands, .inr ⟨hdecision, hrefunds⟩, rfl⟩

variable {made : PlanConfirmationDecision}

/-- What a decision leaves is one of the effects. -/
theorem Stands.effect {input : DecideExecutionConfirmationInput} {now : TimeValue}
    {s₁ : Confirmations} {ledger : MemoryCreditLedger}
    (hstored : s.requests.get? input.requestId = some stored)
    (hintime : stored.request.status = .pending → holdRunOut host (isoText now) stored = false)
    (h : Stands host s input stored made s₁)
    (hrefunds : made.decision = .confirmed ∧ ledger = s₁.ledger ∨
      made.decision = .rejected ∧ Refunds host stored s₁.ledger ledger) :
    CallEffect host s (.decide input now) (s₁.withLedger ledger) := by
  rcases h.written with ⟨hdecision, rfl⟩ | ⟨hpending, hnew, rfl⟩
  · rcases hrefunds with ⟨-, rfl⟩ | ⟨hrejected, hrefunds⟩
    · exact .refl _
    · refine .refunded _ input.requestId stored ledger hstored (.inr ?_) hrefunds
      rw [hdecision, Option.map_some, hrejected]
  · exact .decided input now stored made ledger hstored hpending (hintime hpending) h.parse
      h.request hnew hrefunds

/-- **What deciding does**, and what is answered. -/
theorem commitDecision_spec (hkeyed : Keyed host s) {input : DecideExecutionConfirmationInput}
    {now : TimeValue} :
    Wp (commitDecisionForWorkspace host input now) s
      (fun value s' => CallEffect host s (.decide input now) s' ∧ Own input value ∧
        (s.getOwned input.workspaceId input.requestId).isSome = true)
      (fun thrown s' => CallEffect host s (.decide input now) s' ∧
        (s.getOwned input.workspaceId input.requestId = none →
          thrown = requestNotFound input.requestId)) := by
  simp only [commitDecisionForWorkspace, wp_bind, wp_transaction, completeDecision, wp_get]
  cases howned : s.getOwned input.workspaceId input.requestId with
  | none =>
    simp only [wp_throw]
    exact ⟨.refl _, fun _ => trivial⟩
  | some stored =>
    have hget := (getOwned_eq_some.mp howned).1
    simp only [wp_bind, wp_ite, wp_pure, wp_throw]
    refine ⟨fun _ => ⟨.refl _, by rintro ⟨⟩⟩, fun hopen => ⟨fun hrunOut => ?_, fun hintime => ?_⟩⟩
    · refine refundHold_spec.mono (fun _ s' h => ?_) fun _ _ _ => ⟨.refl _, by rintro ⟨⟩⟩
      obtain ⟨ledger, hrefunds, rfl⟩ := h
      have howned' : (s.withLedger ledger).getOwned input.workspaceId input.requestId =
          some stored := howned
      refine (markOwnedStatus_spec howned' (hkeyed.request _ _ hget).2).mono (fun _ s' h => ?_)
        fun _ _ _ => ⟨.refl _, by rintro ⟨⟩⟩
      obtain ⟨hpending, rfl⟩ := h
      exact ⟨.ranOut _ input.requestId stored ledger hget hpending hrefunds, by rintro ⟨⟩⟩
    · refine (decideOpen_spec hkeyed howned hopen).mono (fun value s' h => ?_)
        fun _ _ _ => ⟨.refl _, by rintro ⟨⟩⟩
      obtain ⟨hown, s₁, ledger, hstands, hrefunds, rfl⟩ := h
      refine ⟨hstands.effect hget (fun hpending => ?_) hrefunds, hown, rfl⟩
      exact Bool.eq_false_iff.mpr fun hrun => hintime ⟨hpending, hrun⟩

/-! ### Expiry -/

theorem expire_spec (hkeyed : Keyed host s) {input : ExpireExecutionConfirmationInput} :
    Wp (expireForWorkspace host input) s (fun _ => CallEffect host s (.expire input))
      (fun _ s' => s' = s) := by
  simp only [expireForWorkspace, wp_transaction, completeExpiry, wp_bind, wp_get]
  cases howned : s.getOwned input.workspaceId input.requestId with
  | none =>
    simp only [wp_throw]
  | some stored =>
    have hget := (getOwned_eq_some.mp howned).1
    simp only [wp_bind, wp_ite, wp_pure, wp_throw, wp_get]
    refine ⟨fun _ => trivial, fun hundecided => ⟨fun _ => trivial, fun _ => ?_⟩⟩
    refine refundHold_spec.mono (fun _ s' h => ?_) fun _ _ _ => trivial
    obtain ⟨ledger, hrefunds, rfl⟩ := h
    refine ⟨fun hpending => ?_, fun hclosed => ?_⟩
    · have howned' : (s.withLedger ledger).getOwned input.workspaceId input.requestId =
          some stored := howned
      refine (markOwnedStatus_spec howned' (hkeyed.request _ _ hget).2).mono (fun _ s' h => ?_)
        fun _ _ _ => trivial
      obtain ⟨-, rfl⟩ := h
      exact .ranOut _ input.requestId stored ledger hget hpending hrefunds
    · have hexpired : stored.request.status = .expired := by
        revert hundecided hclosed
        cases stored.request.status <;> simp
      exact .refunded _ input.requestId stored ledger hget (.inl hexpired) hrefunds

/-- A decided request has its decision, so there is nothing to restore. -/
theorem reconcile_spec (hkeyed : Keyed host s) {requestId : String} :
    Wp (reconcileDecided host workspaceId requestId) s (fun _ s' => s' = s)
      (fun _ s' => s' = s) := by
  simp only [reconcileDecided, wp_transaction, wp_bind, wp_get]
  split
  · rw [wp_pure]
  · next stored hfound =>
    obtain ⟨howned, hdecided⟩ := Option.filter_eq_some_iff.mp hfound
    have hdecision := (mem_decided hkeyed (getOwned_eq_some.mp howned).1).mp
      (of_decide_eq_true hdecided)
    rw [if_pos hdecision, wp_pure]

/-- **What a call does is one of the effects.** -/
theorem callEffect (hkeyed : Keyed host s) (call : ConfirmationCall) :
    CallEffect host s call (s.step host call) := by
  cases call with
  | createRequest input =>
    exact wp_final.mp (createRequest_spec.mono (fun _ _ h => h) fun _ _ h => h ▸ .refl _)
  | decide input now =>
    exact wp_final.mp ((commitDecision_spec hkeyed).mono (fun _ _ h => h.1) fun _ _ h => h.1)
  | expire input =>
    exact wp_final.mp ((expire_spec hkeyed).mono (fun _ _ h => h) fun _ _ h => h ▸ .refl _)
  | reconcile workspaceId requestId =>
    exact wp_final.mp ((reconcile_spec hkeyed).mono (fun _ _ h => h ▸ .refl _)
      fun _ _ h => h ▸ .refl _)
  | upkeep upkeep => exact .upkeep upkeep

/-! ## The rows of a run -/

theorem Keyed.empty (authorities : Option (OrderedMap String PendingConfirmationAuthority)) :
    Keyed host (.empty authorities) where
  request _ _ h := nomatch (OrderedMap.get?_empty).symm.trans h
  decision _ _ h := nomatch (OrderedMap.get?_empty).symm.trans h
  listed _ _ h := nomatch (OrderedMap.get?_empty).symm.trans h
  decided id := by
    simp [Confirmations.getDecision, Confirmations.empty]

/-- A row is written that has no decision, and is not decided. -/
theorem Keyed.save (h : Keyed host s) (hid : stored.request.requestId = id)
    (hparse : parseConfirmationRequest host stored.request = .ok stored.request)
    (hstatus : stored.request.status ≠ .decided) (hnone : s.getDecision id = none) :
    Keyed host (s.saveRequest id stored) where
  request := OrderedMap.forall_get?_set ⟨hid, hparse⟩ h.request
  decision := h.decision
  listed := h.listed
  decided k := by
    have hsame : (s.saveRequest id stored).getDecision k = s.getDecision k := rfl
    rw [hsame, h.decided, saveRequest]
    simp only [OrderedMap.get?_set]
    split
    · next hk =>
      subst hk
      refine ⟨fun hdecided => ?_, ?_⟩
      · have := (h.decided k).mpr hdecided
        simp [hnone] at this
      · rintro ⟨row, hrow, hdecided⟩
        exact absurd (Option.some.inj hrow ▸ hdecided) hstatus
    · rfl

theorem Keyed.getDecision_none (h : Keyed host s)
    (hstatus : ∀ stored, s.requests.get? id = some stored → stored.request.status ≠ .decided) :
    s.getDecision id = none := by
  rw [← Option.not_isSome_iff_eq_none, h.decided]
  rintro ⟨stored, hstored, hdecided⟩
  exact hstatus stored hstored hdecided

/-- Only the ledger and the authorities moved. -/
theorem Keyed.others (h : Keyed host s) (ledger : MemoryCreditLedger)
    (authorities : Option (OrderedMap String PendingConfirmationAuthority)) :
    Keyed host { s with ledger, authorities } :=
  ⟨h.request, h.decision, h.listed, h.decided⟩

/-- The parsed request is the one asked for, and pending. -/
theorem status_of_parse (h : parseConfirmationRequest host input.request = .ok request) :
    request.status = .pending := by
  rw [← (parseConfirmationRequest_eq_ok.mp h).2]
  rfl

theorem getDecision_withDecision (h : Keyed host s)
    (hnew : s.decisionsById.get? made.decisionId = none) (k : String) :
    (s.withDecision id stored made).getDecision k =
      if k = made.requestId then some made else s.getDecision k := by
  rw [Confirmations.getDecision, withDecision]
  simp only [OrderedMap.get?_set]
  split
  · rw [Option.bind_some, if_pos rfl]
  · rw [Confirmations.getDecision]
    cases hlisted : s.decisionsByRequest.get? k with
    | none => rfl
    | some found =>
      obtain ⟨decision, hdecision, -⟩ := h.listed k found hlisted
      have hne : found ≠ made.decisionId := by
        rintro rfl
        cases hnew.symm.trans hdecision
      rw [Option.bind_some, Option.bind_some, if_neg hne]

/-- **The first decision of a request.** -/
theorem Keyed.withDecision (h : Keyed host s) (hstored : s.requests.get? id = some stored)
    (hpending : stored.request.status = .pending)
    (hparse : parseConfirmationDecision host made = .ok made) (hrequest : made.requestId = id)
    (hnew : s.decisionsById.get? made.decisionId = none) :
    Keyed host (s.withDecision id stored made) where
  request := by
    obtain ⟨hid, hparsed⟩ := h.request id stored hstored
    exact OrderedMap.forall_get?_set ⟨hid, parse_status hparsed .decided⟩ h.request
  decision k decision hdecision := by
    rw [Confirmations.withDecision, OrderedMap.get?_set] at hdecision
    rw [Confirmations.withDecision, OrderedMap.get?_set]
    split at hdecision
    · next hk =>
      obtain rfl := Option.some.inj hdecision
      exact ⟨hk.symm, by rw [if_pos rfl, hk], hparse⟩
    · obtain ⟨hid, hlisted, hparsed⟩ := h.decision k decision hdecision
      -- a request that has a decision is not pending
      have hne : decision.requestId ≠ made.requestId := by
        intro heq
        have hdecided := (mem_decided h hstored).mpr (by
          rw [← hrequest, ← heq, h.getDecision.mpr ⟨hid ▸ hdecision, rfl⟩]
          rfl)
        cases hpending.symm.trans hdecided
      exact ⟨hid, by rw [if_neg hne, hlisted], hparsed⟩
  listed requestId k hlisted := by
    rw [Confirmations.withDecision, OrderedMap.get?_set] at hlisted
    rw [Confirmations.withDecision]
    simp only [OrderedMap.get?_set]
    split at hlisted
    · next hk =>
      obtain rfl := Option.some.inj hlisted
      exact ⟨made, by rw [if_pos rfl], hk.symm⟩
    · obtain ⟨decision, hdecision, hof⟩ := h.listed requestId k hlisted
      have hne : k ≠ made.decisionId := by
        rintro rfl
        cases hnew.symm.trans hdecision
      exact ⟨decision, by rw [if_neg hne, hdecision], hof⟩
  decided k := by
    rw [getDecision_withDecision h hnew, hrequest, Confirmations.withDecision]
    simp only [OrderedMap.get?_set]
    split
    · exact ⟨fun _ => ⟨_, rfl, rfl⟩, fun _ => rfl⟩
    · exact h.decided k

variable {call : ConfirmationCall}

/-- **Every effect keeps the tables keyed.** -/
theorem CallEffect.keyed (h : CallEffect host s call s') (hkeyed : Keyed host s) :
    Keyed host s' := by
  cases h with
  | kept _ authorities => exact hkeyed.others _ _
  | upkeep => exact hkeyed.others _ _
  | twin => exact hkeyed.others _ _
  | refunded => exact hkeyed.others _ _
  | admitted input stored ledger authorities hparse hprojection hnew =>
    have hpending := status_of_parse hparse
    refine (hkeyed.others ledger authorities).save rfl (parse_parsed hparse)
      (by rw [hpending]; nofun) (hkeyed.getDecision_none fun row hrow => ?_)
    exact nomatch hnew.symm.trans hrow
  | ranOut _ id stored ledger hstored hpending =>
    obtain ⟨hid, hparse⟩ := hkeyed.request id stored hstored
    refine (hkeyed.others ledger s.authorities).save hid (parse_status hparse .expired) nofun
      (hkeyed.getDecision_none fun row hrow => ?_)
    rw [Option.some.inj (hrow.symm.trans hstored), hpending]
    nofun
  | decided input now stored made ledger hstored hpending hintime hparse hrequest hnew =>
    exact (hkeyed.withDecision hstored hpending hparse hrequest hnew).others ledger _

theorem keyed_step (hkeyed : Keyed host s) (call : ConfirmationCall) :
    Keyed host (s.step host call) := (callEffect hkeyed call).keyed hkeyed

/-- How the status of a row may move in a call. -/
inductive StatusMoves (host : ConfirmationHost) (stored : StoredConfirmationRequest) :
    ConfirmationCall → ConfirmationStatus → Prop
  | same (call : ConfirmationCall) : StatusMoves host stored call stored.request.status
  | expires (call : ConfirmationCall) (hpending : stored.request.status = .pending) :
      StatusMoves host stored call .expired
  | decides (input : DecideExecutionConfirmationInput) (now : TimeValue)
      (hpending : stored.request.status = .pending)
      (hintime : holdRunOut host (isoText now) stored = false) :
      StatusMoves host stored (.decide input now) .decided

/-- **Rows and decisions stay**: of a row only the status moves. -/
structure Advances (host : ConfirmationHost) (s : Confirmations) (call : ConfirmationCall)
    (s' : Confirmations) : Prop where
  row : ∀ id stored, s.requests.get? id = some stored → ∃ status,
    s'.requests.get? id = some (stored.marked status) ∧ StatusMoves host stored call status
  decision : ∀ id decision, s.getDecision id = some decision → s'.getDecision id = some decision

/-- Only the ledger and the authorities moved. -/
theorem Advances.others (ledger : MemoryCreditLedger)
    (authorities : Option (OrderedMap String PendingConfirmationAuthority)) :
    Advances host s call { s with ledger, authorities } where
  row _ stored hstored := ⟨stored.request.status, hstored, .same call⟩
  decision _ _ h := h

theorem CallEffect.advances (h : CallEffect host s call s') (hkeyed : Keyed host s) :
    Advances host s call s' := by
  cases h with
  | kept _ authorities => exact .others s.ledger authorities
  | upkeep => exact .others _ s.authorities
  | twin _ ledger authorities => exact .others ledger authorities
  | refunded _ _ _ ledger => exact .others ledger s.authorities
  | admitted input stored ledger authorities hparse hprojection hnew =>
    refine ⟨fun id row hrow => ⟨row.request.status, ?_, .same _⟩, fun _ _ h => h⟩
    have hne : id ≠ stored.request.requestId := by
      rintro rfl
      cases hnew.symm.trans hrow
    rw [OrderedMap.get?_set, if_neg hne, hrow]
    rfl
  | ranOut _ id stored ledger hstored hpending =>
    refine ⟨fun k row hrow => ?_, fun _ _ h => h⟩
    rw [saveRequest, OrderedMap.get?_set]
    split
    · next hk =>
      subst hk
      obtain rfl := Option.some.inj (hstored.symm.trans hrow)
      exact ⟨.expired, rfl, .expires _ hpending⟩
    · exact ⟨row.request.status, hrow, .same _⟩
  | decided input now stored made ledger hstored hpending hintime hparse hrequest hnew =>
    refine ⟨fun k row hrow => ?_, fun k decision hdecision => ?_⟩
    · rw [OrderedMap.get?_set]
      split
      · next hk =>
        subst hk
        obtain rfl := Option.some.inj (hstored.symm.trans hrow)
        exact ⟨.decided, rfl, .decides input now hpending hintime⟩
      · exact ⟨row.request.status, hrow, .same _⟩
    · -- a request that has a decision is not pending
      have hne : k ≠ made.requestId := by
        rintro rfl
        rw [hrequest] at hdecision
        have hdecided := (mem_decided hkeyed hstored).mpr (by rw [hdecision]; rfl)
        cases hpending.symm.trans hdecided
      have hmade : (s.withDecision input.requestId stored made).getDecision k = _ :=
        getDecision_withDecision hkeyed hnew k
      rw [if_neg hne, hdecision] at hmade
      exact hmade

theorem advances_step (hkeyed : Keyed host s) (call : ConfirmationCall) :
    Advances host s call (s.step host call) := (callEffect hkeyed call).advances hkeyed

/-- A request stays with its workspace. -/
theorem Advances.getOwned (h : Advances host s call s')
    (howned : (s.getOwned workspaceId id).isSome = true) :
    (s'.getOwned workspaceId id).isSome = true := by
  obtain ⟨stored, hstored⟩ := Option.isSome_iff_exists.mp howned
  obtain ⟨hget, hworkspace⟩ := getOwned_eq_some.mp hstored
  obtain ⟨status, hrow, -⟩ := h.row id stored hget
  rw [getOwned_eq_some.mpr ⟨hrow, hworkspace⟩]
  rfl

end MeiyeAgent
