import MeiyeAgent.Harness.PaidConfirmation
import MeiyeAgent.Harness.PlanStores
import MeiyeAgent.Machinery.Logs

/-!
# Harness/ConfirmedRuns — no paid run passes the gate unapproved

Each pass of the gate appends its calls to the log.  An admission is called only at the end of a
pass, right behind an approval, the stored decision and the live facts (`Approved`); the induction
over the passes carries this for every call of the log (`Lawful`).

* `paidRunsConfirmed` — what a run returns, what it calls, and which requests it holds.
* `not_paidRunsConfirmed` — a reservation alone is not held: the gate looks for a quoted submission.
-/

namespace MeiyeAgent

open Effect Logs

variable {ρ : Type}

/-! ## What approves -/

/-- An event that approves a confirmation: an accepted answer to its card, or its decision. -/
def GateEvent.ApprovedBy (workspaceId requestId : String) : GateEvent ρ → Prop
  | .answered card command =>
    parseTrimmed requestId = some card.questionId ∧ command.approves = true
  | .decisionRead workspace request decision => workspace = workspaceId ∧ request = requestId ∧
      decision.any (·.decision = .confirmed) = true
  | _ => False

/-- An event that neither calls an admission nor moves the gate to another request. -/
def GateEvent.Still : GateEvent ρ → Prop
  | .admissionCalled _ | .applied _ => False
  | _ => True

/-- Events of a pass before it has called anything. -/
def AllStill (events : List (GateEvent ρ)) : Prop := ∀ e ∈ events, e.Still

section Still

variable {e : GateEvent ρ} {events more : List (GateEvent ρ)}

@[simp] theorem still_reported (event : ConfirmPaidGenerationProgressEvent) :
    (GateEvent.reported event : GateEvent ρ).Still := trivial

@[simp] theorem still_answered (card : QuestionCard) (command : StructuredDecisionInput) :
    (GateEvent.answered card command : GateEvent ρ).Still := trivial

@[simp] theorem still_decisionRead (workspaceId requestId : String)
    (decision : Option StoredPlanDecision) :
    (GateEvent.decisionRead workspaceId requestId decision : GateEvent ρ).Still := trivial

@[simp] theorem still_liveFactsResolved (snapshot : ExecutionPlanSnapshot ρ)
    (live : Option SnapshotLiveFacts) : (GateEvent.liveFactsResolved snapshot live).Still := trivial

@[simp] theorem still_successorRequested (request : RepricedPaidExecutionSuccessorRequest) :
    (GateEvent.successorRequested request : GateEvent ρ).Still := trivial

@[simp] theorem allStill_nil : AllStill ([] : List (GateEvent ρ)) :=
  fun _ he => absurd he List.not_mem_nil

@[simp] theorem allStill_cons : AllStill (e :: events) ↔ e.Still ∧ AllStill events :=
  List.forall_mem_cons

@[simp] theorem allStill_append : AllStill (events ++ more) ↔ AllStill events ∧ AllStill more :=
  List.forall_mem_append

theorem GateEvent.ApprovedBy.still {workspaceId requestId : String}
    (h : e.ApprovedBy workspaceId requestId) : e.Still := by
  cases e with
  | admissionCalled | applied => exact h.elim
  | _ => trivial

end Still

/-- The request a run is at. -/
def activeRequest (request : HarnessWorkflowInput ρ) : List (GateEvent ρ) → HarnessWorkflowInput ρ
  | [] => request
  | .applied next :: events => activeRequest next events
  | _ :: events => activeRequest request events

/-- **The admission of the frozen plan of a request**, once it is approved: the events of the pass,
from the approval on, and the call they end in. -/
structure Approved (host : PlanHost ρ) (workflowId : String) (request : HarnessWorkflowInput ρ)
    (pending : PendingExecutionPlanSnapshot ρ) (decision : StoredPlanDecision)
    (events : List (GateEvent ρ)) (call : AdmitExecutionPlanInput ρ) : Prop where
  frozen : request.pendingExecutionPlanSnapshot = some pending
  confirmed : decision.decision = .confirmed
  built : host.buildExecutionPlanSnapshot pending.content (some pending.snapshotHash)
    (some decision.decisionId) = .ok call.snapshot
  current : ∀ live, call.live = some live → evaluateExecutionPlanStaleness call.snapshot live = []
  ordered : ∃ requestId approval facts, confirmationRequestId workflowId request = .ok requestId ∧
    approval.ApprovedBy request.workspaceId requestId ∧
    (facts = [] ∧ call.live = none ∨ facts = [.liveFactsResolved call.snapshot call.live]) ∧
    events = [approval, .reported acceptedProgress,
      .decisionRead request.workspaceId requestId (some decision)] ++ facts

/-- **Every admission a run calls is approved in its own pass.** -/
def Lawful (host : PlanHost ρ) (workflowId : String) (request : HarnessWorkflowInput ρ)
    (log : List (GateEvent ρ)) : Prop :=
  ∀ before call after, log = before ++ .admissionCalled call :: after →
    ∃ earlier events pending decision, before = earlier ++ events ∧
      Approved host workflowId (activeRequest request earlier) pending decision events call

/-- **The plan of a frozen content**: that content, with its hash and the id of a decision. -/
structure PlanOf (pending : PendingExecutionPlanSnapshot ρ) (decision : StoredPlanDecision)
    (plan : ExecutionPlanSnapshot ρ) : Prop where
  content : plan.content = pending.content
  hash : plan.snapshotHash = pending.snapshotHash
  decided : plan.confirmationDecisionRef = some decision.decisionId

/-- **What a run returns of a request that is held**: an approved request without a frozen plan, or
the frozen plan, admitted. -/
def ReturnsApproved (host : PlanHost ρ) (workflowId : String) (request : HarnessWorkflowInput ρ)
    (log : List (GateEvent ρ)) (out : HarnessWorkflowInput ρ) : Prop :=
  ∃ earlier events, log = earlier ++ events ∧
    (((activeRequest request earlier).pendingExecutionPlanSnapshot = none ∧
        out = activeRequest request earlier ∧
        ∃ requestId approval, confirmationRequestId workflowId out = .ok requestId ∧
          approval.ApprovedBy out.workspaceId requestId ∧
          events = [approval, .reported acceptedProgress]) ∨
      ∃ pending decision call evidence,
        events = evidence ++ [.admissionCalled call] ∧
        Approved host workflowId (activeRequest request earlier) pending decision evidence call ∧
        PlanOf pending decision call.snapshot ∧
        out = { activeRequest request earlier with executionPlanSnapshot := some call.snapshot })

/-! ### Logs -/

section Logs

variable {request next : HarnessWorkflowInput ρ} {log events : List (GateEvent ρ)}

theorem activeRequest_still (h : AllStill events) :
    activeRequest request (log ++ events) = activeRequest request log := by
  induction log generalizing request with
  | nil =>
    induction events with
    | nil => rfl
    | cons e events ih =>
      have ih := ih fun e he => h e (List.mem_cons_of_mem _ he)
      have he := h e List.mem_cons_self
      cases e with
      | applied => exact he.elim
      | _ => exact ih
  | cons e log ih =>
    cases e with
    | applied next => exact ih
    | _ => exact ih

theorem activeRequest_applied :
    activeRequest request (log ++ [.applied next]) = next := by
  induction log generalizing request with
  | nil => rfl
  | cons e log ih =>
    cases e with
    | applied next => exact ih
    | _ => exact ih

variable {host : PlanHost ρ} {workflowId : String} {call : AdmitExecutionPlanInput ρ}

/-- Events that call nothing keep a log lawful. -/
theorem Lawful.append (h : Lawful host workflowId request log)
    (hquiet : ∀ call, GateEvent.admissionCalled call ∉ events) :
    Lawful host workflowId request (log ++ events) := by
  intro before call after heq
  rcases List.append_eq_append_iff.mp heq with ⟨rest, hbefore, hevents⟩ | ⟨rest, hlog, hafter⟩
  · refine absurd ?_ (hquiet call)
    rw [hevents]
    exact List.mem_append_right _ List.mem_cons_self
  · cases rest with
    | nil =>
      refine absurd ?_ (hquiet call)
      rw [← List.nil_append events, ← hafter]
      exact List.mem_cons_self
    | cons e rest =>
      rw [List.cons_append, List.cons.injEq] at hafter
      obtain ⟨rfl, -⟩ := hafter
      exact h before call rest hlog

theorem not_called_of_still (h : AllStill events) (call : AdmitExecutionPlanInput ρ) :
    GateEvent.admissionCalled call ∉ events := fun hmem => h _ hmem

/-- **An approved call keeps a log lawful.** -/
theorem Lawful.called {pending : PendingExecutionPlanSnapshot ρ}
    {decision : StoredPlanDecision} (h : Lawful host workflowId request log)
    (happroved : Approved host workflowId (activeRequest request log) pending decision events
      call) (hstill : AllStill events) :
    Lawful host workflowId request (log ++ events ++ [.admissionCalled call]) := by
  intro before call' after heq
  rcases List.eq_nil_or_concat after with rfl | ⟨after, e, rfl⟩
  · obtain ⟨hbefore, hcall⟩ := List.append_inj' heq rfl
    obtain rfl := GateEvent.admissionCalled.inj (List.cons.inj hcall).1
    exact ⟨log, events, pending, decision, hbefore.symm, happroved⟩
  · rw [List.concat_eq_append, ← List.cons_append, ← List.append_assoc] at heq
    obtain ⟨hbefore, -⟩ := List.append_inj' heq rfl
    exact h.append (not_called_of_still hstill) before call' after hbefore

end Logs

/-! ## What each operation appends -/

section Operations

variable {σ : Type} {host : PlanHost ρ}
  (ports : ConfirmPaidGenerationPorts host σ) (workflowId : String)

/-- The log of a gate. -/
abbrev gateLog (s : GateState ρ σ) : List (GateEvent ρ) := s.log

theorem emits_port {α : Type} (port : EStateM GateError σ α) :
    Emits gateLog (callPort port : GateM ρ σ α) (fun _ events => events = []) (· = []) :=
  Emits.zoom (fun _ _ => rfl) (fun _ => rfl) rfl

theorem emits_event (event : GateEvent ρ) {E : List (GateEvent ρ) → Prop} :
    Emits gateLog (logEvent event : GateM ρ σ Unit) (fun _ events => events = [event]) E :=
  Emits.event (fun _ => rfl) rfl

/-- A call that is logged with its answer. -/
theorem emits_logged {α : Type} (port : EStateM GateError σ α) (event : α → GateEvent ρ) :
    Emits gateLog (do let a ← callPort port; logEvent (event a); return a : GateM ρ σ α)
      (fun a events => events = [event a]) (· = []) := by
  refine (emits_port port).bind ?_ fun _ h => h
  rintro a _ rfl
  refine (emits_event (event a)).bind ?_ fun _ h => h
  rintro _ _ rfl
  exact .pure rfl

theorem emits_report (event : ConfirmPaidGenerationProgressEvent) :
    Emits gateLog (report ports event : GateM ρ σ Unit)
      (fun _ events => events = [.reported event]) (· = []) := by
  refine (emits_port _).bind ?_ fun _ h => h
  rintro _ _ rfl
  exact emits_event _

theorem emits_liveFacts (request : HarnessWorkflowInput ρ) (snapshot : ExecutionPlanSnapshot ρ) :
    Emits gateLog (resolveLiveFacts ports workflowId request snapshot)
      (fun live events => events = [] ∧ live = none ∨ events = [.liveFactsResolved snapshot live])
      (· = []) := by
  rw [resolveLiveFacts]
  split
  · exact .pure (.inl ⟨rfl, rfl⟩)
  · exact (emits_logged _ _).mono (fun _ _ h => .inr h) fun _ h => h

/-- **A stale plan is refused**, with no admission called. -/
theorem emits_refuseStale (requestId : String) (request : HarnessWorkflowInput ρ)
    (pending : PendingExecutionPlanSnapshot ρ) (snapshot : ExecutionPlanSnapshot ρ)
    (live : SnapshotLiveFacts) (stale : List SnapshotStaleField) :
    Emits gateLog (refuseStale ports workflowId requestId request pending snapshot live stale)
      (fun _ _ => False) AllStill := by
  unfold refuseStale
  refine .ite (fun _ => .throw allStill_nil) fun _ => ?_
  split
  · refine .ite (fun _ => ?_) fun _ => .throw allStill_nil
    refine (emits_event _).bind (E := fun _ => False) ?_ fun _ h => h.elim
    rintro _ _ rfl
    refine (emits_port _).bind ?_ ?_
    · rintro created _ rfl
      split <;> exact .throw (by simp)
    · rintro _ rfl
      simp
  · exact .throw allStill_nil

theorem emits_checkLiveFacts (requestId : String) (request : HarnessWorkflowInput ρ)
    (pending : PendingExecutionPlanSnapshot ρ) (snapshot : ExecutionPlanSnapshot ρ)
    (live : Option SnapshotLiveFacts) :
    Emits gateLog (checkLiveFacts ports workflowId requestId request pending snapshot live)
      (fun _ events => events = [] ∧
        ∀ facts, live = some facts → evaluateExecutionPlanStaleness snapshot facts = [])
      AllStill := by
  unfold checkLiveFacts
  split
  · exact .pure ⟨rfl, nofun⟩
  · next facts =>
    refine .ite (fun _ => .throw allStill_nil) fun _ => ?_
    split
    · next hcurrent =>
      refine .pure ⟨rfl, ?_⟩
      rintro _ heq
      obtain rfl := Option.some.inj heq
      exact hcurrent
    · exact (emits_refuseStale ports workflowId _ _ _ _ _ _).mono (fun _ _ h => h.elim)
        fun _ h => h

/-- **An admission answers with the snapshot it was called with.** -/
theorem emits_callAdmission [DecidableEq ρ] (store : ExecutionPlanSnapshotStore host σ)
    (input : AdmitExecutionPlanInput ρ)
    (hself : host.parseSnapshot input.snapshot = some input.snapshot) :
    Emits gateLog (callAdmission ports store input)
      (fun answer events => events = [.admissionCalled input] ∧ answer = input.snapshot ∧
        input.snapshot.snapshotHash =
          host.computeExecutionPlanSnapshotHash input.snapshot.content)
      (· = [.admissionCalled input]) := by
  refine (emits_event _).bind (E := fun _ => False) ?_ fun _ h => h.elim
  rintro _ _ rfl
  refine .get_bind fun s => ?_
  intro t
  refine wp_zoom.mpr ?_
  have h := ExecutionPlanAdmissionService.admission_self store input (ports.now s.world) t.world
    hself
  unfold Wp at h ⊢
  unfold liftAdmission
  cases hrun : ExecutionPlanAdmissionService.admitExecutionPlanSnapshot store input
      (ports.now s.world) t.world with
  | ok answer w =>
    rw [hrun] at h
    exact ⟨[], (List.append_nil _).symm, rfl, h⟩
  | error e w => exact ⟨[], (List.append_nil _).symm, rfl⟩

/-- The call an admission makes of a decided plan, with the events from the decision on. -/
structure DecidedCall (host : PlanHost ρ) (workflowId requestId : String)
    (request : HarnessWorkflowInput ρ) (pending : PendingExecutionPlanSnapshot ρ)
    (decision : StoredPlanDecision) (evidence : List (GateEvent ρ))
    (call : AdmitExecutionPlanInput ρ) : Prop where
  frozen : request.pendingExecutionPlanSnapshot = some pending
  named : confirmationRequestId workflowId request = .ok requestId
  confirmed : decision.decision = .confirmed
  built : host.buildExecutionPlanSnapshot pending.content (some pending.snapshotHash)
    (some decision.decisionId) = .ok call.snapshot
  current : ∀ live, call.live = some live → evaluateExecutionPlanStaleness call.snapshot live = []
  ordered : ∃ facts, (facts = [] ∧ call.live = none ∨
      facts = [.liveFactsResolved call.snapshot call.live]) ∧
    evidence = .decisionRead request.workspaceId requestId (some decision) :: facts

section Decided

variable {workflowId} {requestId : String} {request : HarnessWorkflowInput ρ}
  {pending : PendingExecutionPlanSnapshot ρ} {decision : StoredPlanDecision}
  {evidence : List (GateEvent ρ)} {call : AdmitExecutionPlanInput ρ} {approval : GateEvent ρ}

theorem DecidedCall.approved
    (h : DecidedCall host workflowId requestId request pending decision evidence call)
    (happroval : approval.ApprovedBy request.workspaceId requestId) :
    Approved host workflowId request pending decision
      (approval :: .reported acceptedProgress :: evidence) call where
  frozen := h.frozen
  confirmed := h.confirmed
  built := h.built
  current := h.current
  ordered := by
    obtain ⟨facts, hfacts, rfl⟩ := h.ordered
    exact ⟨requestId, approval, facts, h.named, happroval, hfacts, rfl⟩

theorem DecidedCall.still
    (h : DecidedCall host workflowId requestId request pending decision evidence call) :
    AllStill evidence := by
  obtain ⟨facts, ⟨rfl, -⟩ | rfl, rfl⟩ := h.ordered <;> simp

/-- **The snapshot built of a decided plan**, where the admission has found its digest again. -/
theorem DecidedCall.planOf
    (h : DecidedCall host workflowId requestId request pending decision evidence call)
    (hdigest : call.snapshot.snapshotHash =
      host.computeExecutionPlanSnapshotHash call.snapshot.content) :
    PlanOf pending decision call.snapshot := by
  obtain ⟨hhash, hparse⟩ := build_eq_ok.mp h.built
  obtain ⟨hcontent, hread, href, -⟩ := parseSnapshot_eq_some.mp hparse
  have hsame : pending.snapshotHash = call.snapshot.snapshotHash := by
    have hread' := host.digest_read pending.content
    rw [← hhash] at hread'
    exact Option.some.inj (hread'.symm.trans hread)
  refine ⟨host.digest_inj _ _ hcontent ?_, hsame.symm, ?_⟩
  · rw [← hdigest, ← hsame, hhash]
  · have htruthy : truthy (some decision.decisionId) = some decision.decisionId :=
      Option.filter_some_pos (by simp [(parseTrimmed_eq_self.mp decision.identified).2])
    rw [htruthy] at href
    obtain ⟨id, hid, hsome⟩ := Option.map_eq_some_iff.mp
      (href : (parseTrimmed decision.decisionId).map some =
        some call.snapshot.confirmationDecisionRef)
    rw [← hsome, Option.some.inj (decision.identified.symm.trans hid)]

end Decided

theorem ok_of_mapError {ε ε' α : Type} {f : ε → ε'} {x : Except ε α} {a : α}
    (h : x.mapError f = .ok a) : x = .ok a := by
  cases x with
  | ok b => exact congrArg _ (Except.ok.inj h)
  | error e => exact nomatch h

/-- From the confirmed decision to the admission. -/
theorem emits_decided [DecidableEq ρ] (request : HarnessWorkflowInput ρ) (requestId : String)
    (pending : PendingExecutionPlanSnapshot ρ) (decision : StoredPlanDecision)
    (store : ExecutionPlanSnapshotStore host σ)
    (hpending : request.pendingExecutionPlanSnapshot = some pending)
    (hnamed : confirmationRequestId workflowId request = .ok requestId)
    (hconfirmed : decision.decision = .confirmed) :
    Emits gateLog (admitDecided ports workflowId requestId request pending decision store)
      (fun out events => ∃ facts call, events = facts ++ [.admissionCalled call] ∧
        DecidedCall host workflowId requestId request pending decision
          (.decisionRead request.workspaceId requestId (some decision) :: facts) call ∧
        PlanOf pending decision call.snapshot ∧
        out = { request with executionPlanSnapshot := some call.snapshot })
      fun events => AllStill events ∨ ∃ facts call, events = facts ++ [.admissionCalled call] ∧
        DecidedCall host workflowId requestId request pending decision
          (.decisionRead request.workspaceId requestId (some decision) :: facts) call := by
  unfold admitDecided
  refine Emits.bind
    (Q := fun snapshot events => host.buildExecutionPlanSnapshot pending.content
      (some pending.snapshotHash) (some decision.decisionId) = .ok snapshot ∧ events = [])
    (E := (· = [])) (.check (fun _ h => ⟨ok_of_mapError h, rfl⟩) fun _ => rfl) ?_
    (by rintro _ rfl; exact .inl allStill_nil)
  rintro snapshot _ ⟨hbuilt, rfl⟩
  have hself : host.parseSnapshot snapshot = some snapshot :=
    settles_parseSnapshot _ _ _ (build_eq_ok.mp hbuilt).2
  refine (emits_liveFacts ports workflowId request snapshot).bind ?_
    (by rintro _ rfl; exact .inl allStill_nil)
  intro live facts hfacts
  have hstill : AllStill facts := by
    obtain ⟨rfl, -⟩ | rfl := hfacts <;> simp
  refine (emits_checkLiveFacts ports workflowId requestId request pending snapshot live).bind ?_
    fun events h => .inl ?_
  · rintro _ _ ⟨rfl, hcurrent⟩
    have hcall : DecidedCall host workflowId requestId request pending decision
        (.decisionRead request.workspaceId requestId (some decision) :: facts)
        (admissionInput workflowId request snapshot live) :=
      ⟨hpending, hnamed, hconfirmed, hbuilt, hcurrent, facts, hfacts, rfl⟩
    refine (emits_callAdmission ports store (admissionInput workflowId request snapshot live)
      hself).bind ?_ ?_
    · rintro _ _ ⟨rfl, rfl, hdigest⟩
      exact .pure ⟨facts, _, by simp, hcall, hcall.planOf hdigest, rfl⟩
    · rintro _ rfl
      exact .inr ⟨facts, _, by simp, hcall⟩
  · simpa using ⟨hstill, h⟩

/-- **The admission of the frozen plan of a request.** -/
theorem emits_admitConfirmed [DecidableEq ρ] (request : HarnessWorkflowInput ρ) (requestId : String)
    (pending : PendingExecutionPlanSnapshot ρ)
    (hpending : request.pendingExecutionPlanSnapshot = some pending)
    (hnamed : confirmationRequestId workflowId request = .ok requestId) :
    Emits gateLog (admitConfirmedExecutionPlan ports workflowId request)
      (fun out events => ∃ decision evidence call, events = evidence ++ [.admissionCalled call] ∧
        DecidedCall host workflowId requestId request pending decision evidence call ∧
        PlanOf pending decision call.snapshot ∧
        out = { request with executionPlanSnapshot := some call.snapshot })
      fun events => AllStill events ∨ ∃ decision evidence call,
        events = evidence ++ [.admissionCalled call] ∧
        DecidedCall host workflowId requestId request pending decision evidence call := by
  unfold admitConfirmedExecutionPlan
  rw [hpending]
  simp only
  split
  · next read store hread hstore =>
    rw [hnamed]
    refine Emits.bind (Q := fun a events => requestId = a ∧ events = []) (E := fun _ => False)
      (.check (fun a ha => ⟨Except.ok.inj ha, rfl⟩) fun ⟨_, he⟩ => nomatch he) ?_
      fun _ h => h.elim
    rintro _ _ ⟨rfl, rfl⟩
    refine (emits_logged _ _).bind ?_ ?_
    · rintro stored _ rfl
      split
      · exact .throw (.inl (by simp))
      · next decision =>
        refine .ite (fun hconfirmed => ?_) fun _ =>
          .throw (.inl (by simp))
        refine (emits_decided ports workflowId request requestId pending decision store hpending
          hnamed hconfirmed).mono ?_ ?_
        · rintro out _ ⟨facts, call, rfl, hcall, hplan, rfl⟩
          exact ⟨decision, .decisionRead request.workspaceId requestId (some decision) :: facts,
            call, by simp, hcall, hplan, by rw [hpending]⟩
        · rintro _ (hstill | ⟨facts, call, rfl, hcall⟩)
          · exact .inl (by simpa using hstill)
          · exact .inr ⟨decision,
              .decisionRead request.workspaceId requestId (some decision) :: facts, call,
              by simp, hcall⟩
    · rintro _ rfl
      exact .inl allStill_nil
  · exact .throw (.inl allStill_nil)

/-! ### One pass -/

/-- **How a pass that calls an admission ends**: the call stands right behind its approval. -/
def CallsApproved (host : PlanHost ρ) (workflowId : String) (request : HarnessWorkflowInput ρ)
    (pending : PendingExecutionPlanSnapshot ρ) (decision : StoredPlanDecision)
    (call : AdmitExecutionPlanInput ρ) (events : List (GateEvent ρ)) : Prop :=
  ∃ earlier evidence, events = earlier ++ evidence ++ [.admissionCalled call] ∧
    AllStill earlier ∧ AllStill evidence ∧
    Approved host workflowId request pending decision evidence call

theorem CallsApproved.after {workflowId} {request : HarnessWorkflowInput ρ}
    {pending : PendingExecutionPlanSnapshot ρ} {decision : StoredPlanDecision}
    {call : AdmitExecutionPlanInput ρ} {before events : List (GateEvent ρ)}
    (h : CallsApproved host workflowId request pending decision call events)
    (hbefore : AllStill before) :
    CallsApproved host workflowId request pending decision call (before ++ events) := by
  obtain ⟨earlier, evidence, rfl, hearlier, hevidence⟩ := h
  exact ⟨before ++ earlier, evidence, by simp, allStill_append.mpr ⟨hbefore, hearlier⟩, hevidence⟩

/-- What an admission appends behind its approval. -/
theorem emits_confirmedPass [DecidableEq ρ] (request : HarnessWorkflowInput ρ) (requestId : String)
    (pending : PendingExecutionPlanSnapshot ρ) (approval : GateEvent ρ)
    (happroval : approval.ApprovedBy request.workspaceId requestId)
    (hpending : request.pendingExecutionPlanSnapshot = some pending)
    (hnamed : confirmationRequestId workflowId request = .ok requestId) :
    Emits gateLog (confirmedPass ports workflowId request)
      (fun pass events => ∃ decision call,
        CallsApproved host workflowId request pending decision call (approval :: events) ∧
        PlanOf pending decision call.snapshot ∧
        pass = .returns { request with executionPlanSnapshot := some call.snapshot })
      fun events => AllStill (approval :: events) ∨ ∃ decision call,
        CallsApproved host workflowId request pending decision call (approval :: events) := by
  have hcalls {decision : StoredPlanDecision} {evidence : List (GateEvent ρ)}
      {call : AdmitExecutionPlanInput ρ}
      (h : DecidedCall host workflowId requestId request pending decision evidence call) :
      CallsApproved host workflowId request pending decision call
        (approval :: ([.reported acceptedProgress] ++ (evidence ++ [.admissionCalled call]))) := by
    refine ⟨[], _, by simp, allStill_nil, ?_, h.approved happroval⟩
    simpa using ⟨happroval.still, h.still⟩
  unfold confirmedPass
  refine (emits_report ports acceptedProgress).bind ?_ ?_
  · rintro _ _ rfl
    refine (emits_admitConfirmed ports workflowId request requestId pending hpending
      hnamed).bind ?_ ?_
    · rintro _ _ ⟨decision, evidence, call, rfl, hcall, hplan, rfl⟩
      exact .pure ⟨decision, call, by simpa using hcalls hcall, hplan, rfl⟩
    · rintro events (hevents | ⟨decision, evidence, call, rfl, hcall⟩)
      · exact .inl (by simpa using ⟨happroval.still, hevents⟩)
      · exact .inr ⟨decision, call, hcalls hcall⟩
  · rintro _ rfl
    exact .inl (by simpa using happroval.still)

theorem emits_preConfirmed (requestId : String) (request : HarnessWorkflowInput ρ) :
    Emits gateLog (preConfirmed ports requestId request : GateM ρ σ Bool)
      (fun confirmed events => if confirmed then ∃ pending approval,
          request.pendingExecutionPlanSnapshot = some pending ∧ events = [approval] ∧
          approval.ApprovedBy request.workspaceId requestId
        else AllStill events) (· = []) := by
  unfold preConfirmed
  split
  · next pending read hpending hread =>
    refine (emits_logged _ _).bind ?_ fun _ h => h
    rintro existing _ rfl
    refine .pure ?_
    split
    · next hconfirmed => exact ⟨pending, _, hpending, rfl, rfl, rfl, hconfirmed⟩
    · simp
  · exact .pure allStill_nil

theorem emits_askMerchant (requestId : String) (request : HarnessWorkflowInput ρ)
    (noteOutline : Option PaidGenerationNoteOutline) :
    Emits gateLog (askMerchant ports workflowId requestId request noteOutline : GateM ρ σ _)
      (fun command events => ∃ card progress, parseTrimmed requestId = some card.questionId ∧
        events = [.reported progress, .answered card command]) AllStill := by
  unfold askMerchant
  split
  · exact .throw allStill_nil
  · next card hcard =>
    have hname : parseTrimmed requestId = some card.questionId := by
      simp only [QuestionCard.parse, Option.bind_eq_bind, Option.bind_eq_some_iff,
        Option.pure_def, Option.some.injEq] at hcard
      obtain ⟨-, -, id, hid, -, -, -, -, -, -, -, -, rfl⟩ := hcard
      exact hid
    refine (emits_report ports _).bind ?_ ?_
    · rintro _ _ rfl
      refine (emits_logged _ _).mono ?_ ?_
      · rintro command _ rfl
        exact ⟨card, _, hname, rfl⟩
      · rintro _ rfl
        simp
    · rintro _ rfl
      exact allStill_nil

/-- **How a pass returns.** -/
def PassReturns (host : PlanHost ρ) (workflowId : String) (request out : HarnessWorkflowInput ρ)
    (events : List (GateEvent ρ)) : Prop :=
  triggersPaidMediaExecution request = false ∧ out = request ∧ AllStill events ∨
    (∃ earlier requestId approval, events = earlier ++ [approval, .reported acceptedProgress] ∧
      AllStill events ∧ confirmationRequestId workflowId request = .ok requestId ∧
      approval.ApprovedBy request.workspaceId requestId ∧
      request.pendingExecutionPlanSnapshot = none ∧ out = request) ∨
    ∃ pending decision call, CallsApproved host workflowId request pending decision call events ∧
      PlanOf pending decision call.snapshot ∧
      out = { request with executionPlanSnapshot := some call.snapshot }

/-- How a pass ends. -/
def PassEnds (host : PlanHost ρ) (workflowId : String) (request : HarnessWorkflowInput ρ) :
    GatePass ρ → List (GateEvent ρ) → Prop
  | .returns out, events => PassReturns host workflowId request out events
  | .continues next, events => ∃ earlier, events = earlier ++ [.applied next] ∧ AllStill earlier

/-- **How a pass throws**: with nothing called, or in a call that is approved. -/
def PassThrows (host : PlanHost ρ) (workflowId : String) (request : HarnessWorkflowInput ρ)
    (events : List (GateEvent ρ)) : Prop :=
  AllStill events ∨ ∃ pending decision call,
    CallsApproved host workflowId request pending decision call events

variable {workflowId} in
/-- The end of a pass that has an approval. -/
theorem emits_approved [DecidableEq ρ] {request : HarnessWorkflowInput ρ} {requestId : String}
    {pending : PendingExecutionPlanSnapshot ρ} {approval : GateEvent ρ}
    {before : List (GateEvent ρ)} (hbefore : AllStill before)
    (happroval : approval.ApprovedBy request.workspaceId requestId)
    (hpending : request.pendingExecutionPlanSnapshot = some pending)
    (hnamed : confirmationRequestId workflowId request = .ok requestId) :
    Emits gateLog (confirmedPass ports workflowId request)
      (fun pass events => PassEnds host workflowId request pass (before ++ [approval] ++ events))
      fun events => PassThrows host workflowId request (before ++ [approval] ++ events) := by
  refine (emits_confirmedPass ports workflowId request requestId pending approval happroval
    hpending hnamed).mono ?_ ?_
  · rintro _ events ⟨decision, call, hcalls, hplan, rfl⟩
    refine .inr (.inr ⟨pending, decision, call, ?_, hplan, rfl⟩)
    rw [List.append_assoc]
    exact hcalls.after hbefore
  · rintro events (hevents | ⟨decision, call, hcalls⟩)
    · refine .inl ?_
      rw [List.append_assoc]
      exact allStill_append.mpr ⟨hbefore, hevents⟩
    · refine .inr ⟨pending, decision, call, ?_⟩
      rw [List.append_assoc]
      exact hcalls.after hbefore

/-- **One pass of the gate.** -/
theorem emits_confirmationPass [DecidableEq ρ] (noteOutline : Option PaidGenerationNoteOutline)
    (request : HarnessWorkflowInput ρ) :
    Emits gateLog (confirmationPass ports workflowId noteOutline request)
      (PassEnds host workflowId request) (PassThrows host workflowId request) := by
  unfold confirmationPass
  refine .ite (fun hquiet => .pure (.inl ⟨by simpa using hquiet, rfl, allStill_nil⟩)) fun _ => ?_
  refine Emits.bind
    (Q := fun requestId events => confirmationRequestId workflowId request = .ok requestId ∧
      events = []) (E := (· = [])) (.check (fun _ h => ⟨h, rfl⟩) fun _ => rfl) ?_
    (by rintro _ rfl; exact .inl allStill_nil)
  rintro requestId _ ⟨hnamed, rfl⟩
  refine (emits_preConfirmed ports requestId request).bind ?_
    (by rintro _ rfl; exact .inl allStill_nil)
  rintro confirmed read hread
  cases confirmed with
  | true =>
    obtain ⟨pending, approval, hpending, rfl, happroval⟩ := hread
    exact emits_approved ports allStill_nil happroval hpending hnamed
  | false =>
    have hread : AllStill read := hread
    refine (emits_askMerchant ports workflowId requestId request noteOutline).bind ?_
      fun events hevents => .inl (by simpa using ⟨hread, hevents⟩)
    rintro command _ ⟨card, progress, hcard, rfl⟩
    have hbefore : AllStill (read ++ [.reported progress]) := by simpa using hread
    refine .ite (fun happroves => ?_) fun _ => ?_
    · have happroval : (GateEvent.answered card command).ApprovedBy (ρ := ρ) request.workspaceId
          requestId := ⟨hcard, happroves⟩
      cases hpending : request.pendingExecutionPlanSnapshot with
      | some pending =>
        simpa using emits_approved ports hbefore happroval hpending hnamed
      | none =>
        refine (emits_report ports acceptedProgress).bind ?_ ?_
        · rintro _ _ rfl
          refine .pure (.inr (.inl ⟨read ++ [.reported progress], requestId,
            .answered card command, by simp, by simpa using hread, hnamed, happroval, hpending,
            rfl⟩))
        · rintro _ rfl
          exact .inl (by simpa using hread)
    · refine (emits_port _).bind ?_ ?_
      · rintro next _ rfl
        refine (emits_event (.applied next)).bind (E := fun _ => False) ?_ fun _ h => h.elim
        rintro _ _ rfl
        exact .pure ⟨read ++ [.reported progress, .answered card command], by simp,
          by simpa using hread⟩
      · rintro _ rfl
        exact .inl (by simpa using hread)

/-! ### Runs -/

variable {workflowId} in
/-- What a pass that calls an admission leaves: a lawful log, and the call right behind. -/
theorem CallsApproved.lawful {input request : HarnessWorkflowInput ρ}
    {pending : PendingExecutionPlanSnapshot ρ} {decision : StoredPlanDecision}
    {call : AdmitExecutionPlanInput ρ} {log events : List (GateEvent ρ)}
    (h : CallsApproved host workflowId request pending decision call events)
    (hlawful : Lawful host workflowId input log) (hactive : activeRequest input log = request) :
    Lawful host workflowId input (log ++ events) ∧ ∃ earlier evidence,
      log ++ events = earlier ++ (evidence ++ [.admissionCalled call]) ∧
      activeRequest input earlier = request ∧
      Approved host workflowId (activeRequest input earlier) pending decision evidence call := by
  obtain ⟨earlier, evidence, rfl, hearlier, hevidence, happroved⟩ := h
  have hat : activeRequest input (log ++ earlier) = request :=
    (activeRequest_still hearlier).trans hactive
  have hlawful := hlawful.append (not_called_of_still hearlier)
  refine ⟨?_, log ++ earlier, evidence, by simp, hat, hat.symm ▸ happroved⟩
  have := hlawful.called (hat.symm ▸ happroved) hevidence
  simpa using this

/-- **A run of the gate**: every call is approved, and so is what is returned of a held request. -/
theorem confirmPaidGenerationExecution_run [DecidableEq ρ] (noteOutline : Option PaidGenerationNoteOutline)
    (input : HarnessWorkflowInput ρ) : ∀ (fuel : Nat) (request : HarnessWorkflowInput ρ)
    (s : GateState ρ σ), Lawful host workflowId input s.log →
    activeRequest input s.log = request →
    Wp (confirmPaidGenerationExecution ports workflowId noteOutline fuel request) s
      (fun out s' => Lawful host workflowId input s'.log ∧
        (triggersPaidMediaExecution out = false ∧ out = activeRequest input s'.log ∨
          ReturnsApproved host workflowId input s'.log out))
      fun _ s' => Lawful host workflowId input s'.log
  | 0, _, _, hlawful, _ => (wp_throw _).mpr hlawful
  | fuel + 1, request, s, hlawful, hactive => by
    rw [confirmPaidGenerationExecution, wp_bind]
    refine (emits_confirmationPass ports workflowId noteOutline request s).mono ?_ ?_
    · rintro pass s' ⟨events, hlog, hends⟩
      cases pass with
      | continues next =>
        obtain ⟨earlier, rfl, hearlier⟩ := hends
        have hlog : s'.log = s.log ++ (earlier ++ [.applied next]) := hlog
        refine confirmPaidGenerationExecution_run noteOutline input fuel next s' ?_ ?_
        · rw [hlog]
          refine hlawful.append fun call hmem => ?_
          rcases List.mem_append.mp hmem with hmem | hmem
          · exact not_called_of_still hearlier call hmem
          · exact nomatch List.mem_singleton.mp hmem
        · rw [hlog, ← List.append_assoc]
          exact activeRequest_applied
      | returns out =>
        refine (wp_pure _).mpr ?_
        have hlog : s'.log = s.log ++ events := hlog
        rw [hlog]
        obtain ⟨hquiet, rfl, hstill⟩ | ⟨earlier, requestId, approval, rfl, hstill, hnamed, happroval,
          hpending, rfl⟩ | ⟨pending, decision, call, hcalls, hplan, rfl⟩ := hends
        · refine ⟨hlawful.append (not_called_of_still hstill), .inl ⟨hquiet, ?_⟩⟩
          exact ((activeRequest_still hstill).trans hactive).symm
        · refine ⟨hlawful.append (not_called_of_still hstill), .inr ⟨s.log ++ earlier, _,
            (List.append_assoc _ _ _).symm, .inl ?_⟩⟩
          have hat : activeRequest input (s.log ++ earlier) = out :=
            (activeRequest_still (allStill_append.mp hstill).1).trans hactive
          rw [hat]
          exact ⟨hpending, rfl, requestId, approval, hnamed, happroval, rfl⟩
        · obtain ⟨hlawful, earlier, evidence, hsplit, hat, happroved⟩ :=
            hcalls.lawful hlawful hactive
          refine ⟨hlawful, .inr ⟨earlier, _, hsplit, .inr
            ⟨pending, decision, call, evidence, rfl, happroved, hplan, by rw [hat]⟩⟩⟩
    · rintro _ s' ⟨events, hlog, hstill | ⟨pending, decision, call, hcalls⟩⟩
      · rw [show s'.log = s.log ++ events from hlog]
        exact hlawful.append (not_called_of_still hstill)
      · rw [show s'.log = s.log ++ events from hlog]
        exact (hcalls.lawful hlawful hactive).1

end Operations

/-! ## Requests that are held -/

/-- A reservation that is seen to pay for copy alone: by its units, or, where credits are reserved
and no units, by the lens. -/
def CopyOnly (request : HarnessWorkflowInput ρ) (reservation : CreationUsageReservation) : Prop :=
  match reservation.units with
  | none => False
  | some [] => reservation.credits.isSome = true ∧
      request.executionSnapshot.map (·.lens) = some .copy
  | some units => ∀ unit ∈ units, unit.resource = .copy

/-- A request whose reservation may be spent on more than copy. -/
def MaySpend (request : HarnessWorkflowInput ρ) : Prop :=
  ∃ reservation, request.usageReservation = some reservation ∧ ¬ CopyOnly request reservation

/-- A request the gate holds: of a quoted submission, with no confirmed plan yet. -/
def Held (request : HarnessWorkflowInput ρ) : Prop :=
  request.executionPlanSnapshot.map (·.content.approvalBasis) ≠ some .merchant_confirmed ∧
    (∃ snapshot, request.executionSnapshot = some snapshot ∧ snapshot.quote.isSome = true) ∧
    MaySpend request

theorem triggers_iff (request : HarnessWorkflowInput ρ) :
    triggersPaidMediaExecution request = true ↔ Held request := by
  unfold triggersPaidMediaExecution Held MaySpend
  by_cases hplan : request.executionPlanSnapshot.map (·.content.approvalBasis) =
      some .merchant_confirmed
  · simp [hplan]
  · simp only [ne_eq, hplan, not_false_eq_true, true_and]
    cases hsnapshot : request.executionSnapshot with
    | none => simp
    | some snapshot =>
      cases hreservation : request.usageReservation with
      | none => simp
      | some reservation =>
        cases hquote : snapshot.quote with
        | none => simp [hquote]
        | some quote =>
          simp only [CopyOnly, Option.isNone_some, Bool.false_eq_true, if_false, Option.some.injEq,
            exists_eq_left', hquote, Option.isSome_some, true_and, hsnapshot, Option.map_some]
          rcases reservation.units with _ | _ | ⟨unit, units⟩
          · simp
          · cases reservation.credits <;> simp
          · rw [List.any_eq_true, not_forall]
            refine exists_congr fun unit => ?_
            rw [Classical.not_imp]
            refine and_congr_right fun _ => ?_
            cases unit.resource <;> simp [PAID_MEDIA_USAGE_RESOURCES]

/-- **No paid run passes unapproved**: what a run returns, what it calls, and the requests of a kind
are held. -/
def PaidRunsConfirmed (kind : ∀ {ρ : Type}, HarnessWorkflowInput ρ → Prop) : Prop :=
  ∀ (ρ : Type) [DecidableEq ρ] (host : PlanHost ρ) (request : HarnessWorkflowInput ρ),
    (∀ (σ : Type) (ports : ConfirmPaidGenerationPorts host σ) (workflowId : String)
      (noteOutline : Option PaidGenerationNoteOutline) (fuel : Nat) (world : σ),
      Wp (confirmPaidGenerationExecution ports workflowId noteOutline fuel request) ⟨world, []⟩
        (fun out s => Lawful host workflowId request s.log ∧
          (triggersPaidMediaExecution out = false ∧ out = activeRequest request s.log ∨
            ReturnsApproved host workflowId request s.log out))
        fun _ s => Lawful host workflowId request s.log) ∧
    (kind request → triggersPaidMediaExecution request = true)

theorem paidRunsConfirmed : PaidRunsConfirmed Held := by
  intro ρ _ host request
  refine ⟨fun σ ports workflowId noteOutline fuel world => ?_, (triggers_iff request).mpr⟩
  refine confirmPaidGenerationExecution_run ports workflowId noteOutline request fuel request
    ⟨world, []⟩ ?_ rfl
  intro before call after heq
  exact absurd heq.symm (List.append_ne_nil_of_right_ne_nil _ (List.cons_ne_nil _ _))

def bareReader : PlanReader Unit where
  read := some
  settles _ _ _ := rfl
  executionPlan _ :=
    { units := []
      dependencyGroups := []
      executionCapabilities := some CURRENT_COMPILED_EXECUTION_CAPABILITIES }

/-- A digest that tells what the schema reads as itself. -/
def settledHost : PlanHost Unit where
  toPlanReader := bareReader
  computeExecutionPlanSnapshotHash content :=
    if bareReader.parseContent content = some content then "settled" else "unsettled"
  digest_read content := by
    split <;> decide +kernel
  digest_inj content parsed hparse heq := by
    rw [if_pos (settles_parseContent _ _ _ hparse)] at heq
    split at heq
    · next hsame => exact Option.some.inj (hparse.symm.trans hsame)
    · exact absurd heq (by decide)

/-- A plan that the merchant has confirmed, as it is admitted. -/
def frozenPlan : ExecutionPlanSnapshot Unit where
  content :=
    { planRevision := 1
      quoteRef := ⟨"quote", .number 1⟩
      rightsRevisionRefs := ["rights"]
      factRevisionRefs := []
      approvalBasis := .merchant_confirmed
      rest := () }
  snapshotHash := "settled"
  confirmationDecisionRef := some "decision"

/-- A quoted image, with its plan frozen. -/
def frozenRequest : HarnessWorkflowInput Unit where
  workspaceId := "workspace"
  workflowRevision := 1
  executionSnapshot := some ⟨"submission", "task", .image, some ⟨"quote", "1"⟩⟩
  usageReservation := some { units := some [⟨.image, 1⟩] }
  pendingExecutionPlanSnapshot := some ⟨frozenPlan.content, frozenPlan.snapshotHash⟩

def confirmedDecision : StoredPlanDecision where
  decisionId := "decision"
  requestId := "confirmation:workflow"
  actorId := "merchant"
  decision := .confirmed
  decidedAt := "2026-07-01T00:00:00.000Z"
  identified := by decide +kernel

/-- The decision is stored, the plan is current, and plans are kept in memory. -/
def frozenPorts : ConfirmPaidGenerationPorts settledHost (PlanMaps Unit) where
  reportProgress _ := pure ()
  awaitResolvedDecision _ := throw .running
  applyCurrentTaskDecision _ _ _ := throw .running
  getExecutionConfirmationDecision := some fun _ _ => pure (some confirmedDecision)
  executionPlanSnapshots := some (memoryExecutionPlanSnapshotStore settledHost)
  resolveExecutionPlanLiveFacts := some fun _ _ _ => pure (some
    { quoteRevision := some (.number 1), rightsRevisionRefs := some ["rights"] })
  now _ := "2026-07-01T00:00:01.000Z"

/-- A frozen plan is admitted, and returned. -/
theorem paidRunsConfirmed_frozen : ∃ out s,
    confirmPaidGenerationExecution frozenPorts "workflow" none 1 frozenRequest ⟨{}, []⟩ =
      .ok out s ∧ out.executionPlanSnapshot = some frozenPlan ∧
        ReturnsApproved settledHost "workflow" frozenRequest s.log out := by
  have hrun : (match confirmPaidGenerationExecution frozenPorts "workflow" none 1 frozenRequest
      ⟨{}, []⟩ with
    | .ok out s =>
      some (out.executionPlanSnapshot, (activeRequest frozenRequest s.log).executionPlanSnapshot)
    | .error _ _ => none) = some (some frozenPlan, none) := by
    decide +kernel
  have hlaw := (paidRunsConfirmed Unit settledHost frozenRequest).1 (PlanMaps Unit) frozenPorts
    "workflow" none 1 {}
  cases hout : confirmPaidGenerationExecution frozenPorts "workflow" none 1 frozenRequest
      ⟨{}, []⟩ with
  | error e s =>
    rw [hout] at hrun
    cases hrun
  | ok out s =>
    rw [hout] at hrun
    obtain ⟨hplan, hactive⟩ := Prod.mk.inj (Option.some.inj hrun)
    refine ⟨out, s, rfl, hplan, (hlaw.of_eq_ok hout).2.resolve_left fun hquiet => ?_⟩
    rw [← hquiet.2, hplan] at hactive
    cases hactive

/-- An image is reserved, and no submission is quoted. -/
def unquotedRequest : HarnessWorkflowInput Unit where
  workspaceId := "workspace"
  workflowRevision := 1
  usageReservation := some { units := some [⟨.image, 1⟩] }

/-- **A reservation alone is not held.** -/
theorem not_paidRunsConfirmed : ¬ PaidRunsConfirmed MaySpend := by
  intro h
  have hspend : MaySpend unquotedRequest :=
    ⟨_, rfl, fun hcopy => nomatch hcopy ⟨.image, 1⟩ List.mem_cons_self⟩
  exact nomatch (h Unit settledHost unquotedRequest).2 hspend

end MeiyeAgent
