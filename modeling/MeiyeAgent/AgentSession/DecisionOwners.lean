import MeiyeAgent.AgentSession.ConfirmationEffects

/-!
# AgentSession/DecisionOwners — who is answered what about a decision

Deciding a request takes a while, and the service keeps the runs that are under way by the id of
their request.  A call that finds one is answered whatever that run is answered, without a look at
its own words or its workspace.

* `DecideService` — the tables, the runs and the map of those in flight; `step` is one event.
* `AnswersOwn` — an answer that is the caller's own.
* `decidesOwn_run` — **every answer is the caller's own** in a run whose calls only join a run of
  their own words.
* `not_decidesOwn` — another workspace's rejection is answered with a confirmation.
-/

namespace MeiyeAgent

open Effect Table Confirmations

variable {host : ConfirmationHost} {s s' : Confirmations}

/-! ## The service -/

/-- A run of `commitDecisionForWorkspace`, and the calls that hold its promise. -/
structure DecideRun where
  input : DecideExecutionConfirmationInput
  callers : List DecideExecutionConfirmationInput
  answer : Option (Except ConfirmationThrown DecideExecutionConfirmationResult) := none

/-- The promise is returned to one more call. -/
def DecideRun.joinedBy (input : DecideExecutionConfirmationInput) (run : DecideRun) : DecideRun :=
  { run with callers := run.callers ++ [input] }

def DecideRun.answeredWith (answer : Except ConfirmationThrown DecideExecutionConfirmationResult)
    (run : DecideRun) : DecideRun :=
  { run with answer := some answer }

/-- **The service at work**: the transactions of its runs are taken one at a time. -/
structure DecideService where
  tables : Confirmations
  inFlightDecides : OrderedMap String Nat
  runs : List DecideRun

/-- What happens: a call, the transaction of a run, the end of a run, or a transaction of somebody
else's. -/
inductive DecideEvent
  | decideForWorkspace (input : DecideExecutionConfirmationInput)
  | commit (run : Nat) (now : TimeValue)
  | settle (run : Nat)
  | elsewhere (call : ConfirmationCall)

namespace DecideService

/-- The service as constructed. -/
def empty (authorities : Option (OrderedMap String PendingConfirmationAuthority)) : DecideService :=
  ⟨.empty authorities, .empty, []⟩

/-- The run that is in flight for a request. -/
def inFlight (service : DecideService) (requestId : String) : Option DecideRun :=
  (service.inFlightDecides.get? requestId).bind (service.runs[·]?)

/-- The promise under way is returned, or a new one. -/
def decideForWorkspace (input : DecideExecutionConfirmationInput) (service : DecideService) :
    DecideService :=
  match service.inFlightDecides.get? input.requestId with
  | some existing => { service with runs := service.runs.modify existing (·.joinedBy input) }
  | none => { service with
      inFlightDecides := service.inFlightDecides.set input.requestId service.runs.length
      runs := service.runs ++ [{ input, callers := [input] }] }

/-- The run is taken, once. -/
def commit (host : ConfirmationHost) (id : Nat) (now : TimeValue) (service : DecideService) :
    DecideService :=
  match service.runs[id]? with
  | none => service
  | some run =>
    if run.answer.isSome then service
    else { service with
      tables := final (commitDecisionForWorkspace host run.input now) service.tables
      runs := service.runs.modify id (·.answeredWith
        (result (commitDecisionForWorkspace host run.input now) service.tables)) }

/-- `finally`: a run that is answered leaves the map, if it is still there. -/
def settle (id : Nat) (service : DecideService) : DecideService :=
  match service.runs[id]? with
  | none => service
  | some run =>
    if run.answer.isSome ∧ service.inFlightDecides.get? run.input.requestId = some id then
      { service with inFlightDecides := service.inFlightDecides.erase run.input.requestId }
    else service

def step (host : ConfirmationHost) (service : DecideService) : DecideEvent → DecideService
  | .decideForWorkspace input => service.decideForWorkspace input
  | .commit id now => service.commit host id now
  | .settle id => service.settle id
  | .elsewhere call => { service with tables := service.tables.step host call }

end DecideService

/-! ## Answers -/

/-- **The answer is the caller's own**: a decision in its words on a request of its workspace, and
for a request that is not its own the bare word that there is none. -/
def AnswersOwn (s : Confirmations) (input : DecideExecutionConfirmationInput) :
    Except ConfirmationThrown DecideExecutionConfirmationResult → Prop
  | .ok result => Own input result ∧ (s.getOwned input.workspaceId input.requestId).isSome = true
  | .error thrown => s.getOwned input.workspaceId input.requestId = none →
      thrown = requestNotFound input.requestId

variable {input : DecideExecutionConfirmationInput}

/-- A later state says the same. -/
theorem AnswersOwn.advances {call : ConfirmationCall}
    {answer : Except ConfirmationThrown DecideExecutionConfirmationResult}
    (h : AnswersOwn s input answer) (hadvances : Advances host s call s') :
    AnswersOwn s' input answer := by
  cases answer with
  | ok result => exact ⟨h.1, hadvances.getOwned h.2⟩
  | error thrown =>
    intro hnone
    refine h (Option.not_isSome_iff_eq_none.mp fun howned => ?_)
    exact Option.not_isSome_iff_eq_none.mpr hnone (hadvances.getOwned howned)

/-- **A run's own answer.** -/
theorem answersOwn_commit (hkeyed : Keyed host s) (input : DecideExecutionConfirmationInput)
    (now : TimeValue) : AnswersOwn (s.step host (.decide input now)) input
      (result (commitDecisionForWorkspace host input now) s) := by
  have hspec : Wp (commitDecisionForWorkspace host input now) s _ _ := commitDecision_spec hkeyed
  obtain ⟨hok, herror⟩ := wp_iff_result.mp hspec
  have hadvances := advances_step hkeyed (.decide input now)
  refine AnswersOwn.advances ?_ hadvances
  cases hanswer : result (commitDecisionForWorkspace host input now) s with
  | ok value => exact (hok value hanswer).2
  | error thrown => exact (herror thrown hanswer).2

/-! ## Joining a run -/

/-- **Two calls say the same**, or ask for a request that neither of them owns. -/
def Alike (s : Confirmations) (input input' : DecideExecutionConfirmationInput) : Prop :=
  input.requestId = input'.requestId ∧
    ((input.workspaceId = input'.workspaceId ∧
        Text.trim input.decisionId = Text.trim input'.decisionId ∧
        Text.trim input.actorId = Text.trim input'.actorId ∧ input.decision = input'.decision) ∨
      ∃ stored ∈ s.requests.get? input.requestId,
        stored.request.workspaceId ≠ input.workspaceId ∧
          stored.request.workspaceId ≠ input'.workspaceId)

instance (input input' : DecideExecutionConfirmationInput) : Decidable (Alike s input input') :=
  inferInstanceAs (Decidable (_ ∧ _))

theorem Alike.refl (input : DecideExecutionConfirmationInput) : Alike s input input :=
  ⟨rfl, .inl ⟨rfl, rfl, rfl, rfl⟩⟩

theorem Alike.advances {call : ConfirmationCall} {input' : DecideExecutionConfirmationInput}
    (h : Alike s input input') (hadvances : Advances host s call s') : Alike s' input input' := by
  obtain ⟨hrequest, hwords | ⟨stored, hstored, hforeign⟩⟩ := h
  · exact ⟨hrequest, .inl hwords⟩
  · obtain ⟨status, hrow, -⟩ := hadvances.row _ stored hstored
    exact ⟨hrequest, .inr ⟨stored.marked status, hrow, hforeign⟩⟩

/-- A request of another workspace is not found. -/
theorem getOwned_none {stored : StoredConfirmationRequest} {workspaceId id : String}
    (hstored : s.requests.get? id = some stored)
    (hforeign : stored.request.workspaceId ≠ workspaceId) : s.getOwned workspaceId id = none := by
  rw [getOwned, hstored, Option.filter_some, if_neg (by simpa using hforeign)]

/-- **Calls that are alike are answered alike.** -/
theorem AnswersOwn.alike {input' : DecideExecutionConfirmationInput}
    {answer : Except ConfirmationThrown DecideExecutionConfirmationResult}
    (h : AnswersOwn s input answer) (halike : Alike s input input') :
    AnswersOwn s input' answer := by
  obtain ⟨hrequest, ⟨hworkspace, hid, hactor, hdecision⟩ | ⟨stored, hstored, hleft, hright⟩⟩ := halike
  · cases answer with
    | ok result =>
      obtain ⟨hown, howned⟩ := h
      refine ⟨⟨?_, ?_, ?_, ?_, ?_, ?_⟩, hworkspace ▸ hrequest ▸ howned⟩
      · rw [hown.decisionId, hid]
      · rw [hown.actorId, hactor]
      · rw [hown.decision, hdecision]
      · rw [hown.decisionRequest, hrequest]
      · rw [hown.request, hrequest]
      · rw [hown.workspace, hworkspace]
    | error thrown =>
      rw [AnswersOwn, ← hworkspace, ← hrequest]
      exact h
  · have hnone := getOwned_none hstored hleft
    cases answer with
    | ok result => exact absurd h.2 (by rw [hnone]; nofun)
    | error thrown =>
      intro _
      rw [h hnone, hrequest]

/-- **A call joins a run that is alike**, if one is in flight. -/
def JoinsAlike (service : DecideService) : DecideEvent → Prop
  | .decideForWorkspace input =>
    ∀ run ∈ service.inFlight input.requestId, Alike service.tables run.input input
  | _ => True

instance : ∀ (service : DecideService) (event : DecideEvent), Decidable (JoinsAlike service event)
  | service, .decideForWorkspace input => inferInstanceAs (Decidable
      (∀ run ∈ service.inFlight input.requestId, Alike service.tables run.input input))
  | _, .commit _ _ => .isTrue trivial
  | _, .settle _ => .isTrue trivial
  | _, .elsewhere _ => .isTrue trivial

/-! ## Runs -/

/-- What stands in a list of which one place was changed. -/
theorem of_getElem?_modify {α : Type} {l : List α} {f : α → α} {i k : Nat} {a : α}
    (h : (l.modify i f)[k]? = some a) :
    ∃ b, l[k]? = some b ∧ (a = b ∨ k = i ∧ a = f b) := by
  rw [List.getElem?_modify] at h
  obtain ⟨b, hb, rfl⟩ := Option.map_eq_some_iff.mp h
  refine ⟨b, hb, ?_⟩
  split
  · next heq => exact .inr ⟨heq.symm, rfl⟩
  · exact .inl rfl

/-- The invariant: the callers of a run are alike, and its answer is the first one's own. -/
structure OwnRuns (host : ConfirmationHost) (service : DecideService) : Prop where
  keyed : Keyed host service.tables
  inFlight : ∀ requestId id, service.inFlightDecides.get? requestId = some id →
    ∃ run, service.runs[id]? = some run
  callers : ∀ (id : Nat) (run : DecideRun), service.runs[id]? = some run → ∀ input ∈ run.callers,
    Alike service.tables run.input input
  answered : ∀ (id : Nat) (run : DecideRun), service.runs[id]? = some run →
    ∀ answer, run.answer = some answer → AnswersOwn service.tables run.input answer

namespace OwnRuns

variable {service : DecideService}

theorem empty (authorities : Option (OrderedMap String PendingConfirmationAuthority)) :
    OwnRuns host (.empty authorities) where
  keyed := .empty authorities
  inFlight _ _ h := nomatch (OrderedMap.get?_empty).symm.trans h
  callers _ _ h := nomatch (List.getElem?_nil).symm.trans h
  answered _ _ h := nomatch (List.getElem?_nil).symm.trans h

/-- A transaction of the tables leaves what was answered the caller's own. -/
theorem elsewhere (h : OwnRuns host service) (call : ConfirmationCall) :
    OwnRuns host { service with tables := service.tables.step host call } where
  keyed := keyed_step h.keyed call
  inFlight := h.inFlight
  callers id run hrun input hinput :=
    (h.callers id run hrun input hinput).advances (advances_step h.keyed call)
  answered id run hrun answer hanswer :=
    (h.answered id run hrun answer hanswer).advances (advances_step h.keyed call)

theorem decideForWorkspace (h : OwnRuns host service)
    (hjoins : JoinsAlike service (.decideForWorkspace input)) :
    OwnRuns host (service.decideForWorkspace input) := by
  rw [DecideService.decideForWorkspace]
  split
  · next existing hexisting =>
    refine ⟨h.keyed, fun requestId id hid => ?_, fun id run hid => ?_, fun id run hid => ?_⟩
    · obtain ⟨run, hrun⟩ := h.inFlight requestId id hid
      simp [List.getElem?_modify, hrun]
    · obtain ⟨before, hbefore, rfl | ⟨rfl, rfl⟩⟩ := of_getElem?_modify hid
      · exact h.callers id _ hbefore
      · intro caller hcaller
        rcases List.mem_append.mp hcaller with hold | hnew
        · exact h.callers id before hbefore caller hold
        · obtain rfl := List.mem_singleton.mp hnew
          exact hjoins before (by rw [DecideService.inFlight, hexisting]; exact hbefore)
    · obtain ⟨before, hbefore, rfl | ⟨rfl, rfl⟩⟩ := of_getElem?_modify hid
      · exact h.answered id _ hbefore
      · exact h.answered id before hbefore
  · have hrun (id : Nat) (run : DecideRun)
        (hrun : (service.runs ++ [{ input, callers := [input] }])[id]? = some run) :
        service.runs[id]? = some run ∨ run = { input, callers := [input] } := by
      rw [List.getElem?_append] at hrun
      split at hrun
      · exact .inl hrun
      · exact .inr (List.mem_singleton.mp (List.mem_of_getElem? hrun))
    refine ⟨h.keyed, fun requestId id hid => ?_, fun id run hid => ?_, fun id run hid => ?_⟩
    · rw [OrderedMap.get?_set] at hid
      split at hid
      · obtain rfl := Option.some.inj hid
        exact ⟨_, List.getElem?_concat_length⟩
      · obtain ⟨run, hfound⟩ := h.inFlight requestId id hid
        have hlt := (List.getElem?_eq_some_iff.mp hfound).1
        exact ⟨run, by rw [List.getElem?_append_left hlt, hfound]⟩
    · rcases hrun id run hid with hold | rfl
      · exact h.callers id run hold
      · intro caller hcaller
        obtain rfl := List.mem_singleton.mp hcaller
        exact .refl _
    · rcases hrun id run hid with hold | rfl
      · exact h.answered id run hold
      · intro answer hanswer
        exact absurd hanswer.symm (Option.some_ne_none answer)

theorem commit (h : OwnRuns host service) (id : Nat) (now : TimeValue) :
    OwnRuns host (service.commit host id now) := by
  rw [DecideService.commit]
  split
  · exact h
  · next taken htaken =>
    split
    · exact h
    · have hmoved := h.elsewhere (.decide taken.input now)
      refine ⟨hmoved.keyed, fun requestId k hk => ?_, fun k run hk => ?_, fun k run hk => ?_⟩
      · obtain ⟨run, hrun⟩ := h.inFlight requestId k hk
        simp [List.getElem?_modify, hrun]
      · obtain ⟨before, hbefore, rfl | ⟨rfl, rfl⟩⟩ := of_getElem?_modify hk
        · exact hmoved.callers k _ hbefore
        · exact hmoved.callers k before hbefore
      · obtain ⟨before, hbefore, rfl | ⟨rfl, rfl⟩⟩ := of_getElem?_modify hk
        · exact hmoved.answered k _ hbefore
        · intro answer hanswer
          obtain rfl := Option.some.inj (htaken.symm.trans hbefore)
          obtain rfl := Option.some.inj hanswer
          exact answersOwn_commit h.keyed taken.input now

theorem settle (h : OwnRuns host service) (id : Nat) : OwnRuns host (service.settle id) := by
  rw [DecideService.settle]
  split
  · exact h
  · split
    · refine ⟨h.keyed, fun requestId k hk => ?_, h.callers, h.answered⟩
      rw [OrderedMap.get?_erase] at hk
      split at hk
      · cases hk
      · exact h.inFlight requestId k hk
    · exact h

/-- **Every event keeps the invariant** when a call only joins a run that is alike. -/
theorem step (h : OwnRuns host service) {event : DecideEvent} (hjoins : JoinsAlike service event) :
    OwnRuns host (service.step host event) := by
  cases event with
  | decideForWorkspace input => exact h.decideForWorkspace hjoins
  | commit id now => exact h.commit id now
  | settle id => exact h.settle id
  | elsewhere call => exact h.elsewhere call

end OwnRuns

/-- **In a run whose calls only join a run that is alike**, every call is answered its own: a
decision in its words on a request of its workspace, and nothing of another workspace's. -/
theorem decidesOwn_run (events : List DecideEvent)
    (authorities : Option (OrderedMap String PendingConfirmationAuthority))
    (h : Admits (DecideService.step host) JoinsAlike events (.empty authorities)) :
    let service := runAll (DecideService.step host) events (.empty authorities)
    ∀ run ∈ service.runs, ∀ answer, run.answer = some answer → ∀ input ∈ run.callers,
      AnswersOwn service.tables input answer := by
  intro service run hrun answer hanswer input hinput
  have hinv : OwnRuns host service := runAll_induct (OwnRuns host)
    (fun _ _ hinv hjoins => hinv.step hjoins) events (.empty authorities) h
  obtain ⟨id, hlt, rfl⟩ := List.getElem_of_mem hrun
  have hget := List.getElem?_eq_getElem hlt
  exact (hinv.answered id _ hget answer hanswer).alike (hinv.callers id _ hget input hinput)

/-! ### A run that is joined -/

/-- A plan of the shop that holds no credits. -/
def planOnlyRequest : CreateExecutionConfirmationInput where
  requestId := "request"
  workspaceId := "shop"
  planId := "plan"
  planRevision := 1
  snapshotHash := "hash"
  quoteRef := ⟨"quote", .number 1⟩
  reservationIdempotencyKey := "hold"
  createdAt := "2026-01-01T00:00:00.000Z"
  holdExpiresAt := "2026-01-02T00:00:00.000Z"
  actorId := "owner"
  creditCost := 0
  failureRefundsCredits := true
  campaignPlanRef := some ⟨"campaign", .number 1⟩
  workOrdinal := some 1
  approvalScope := some .plan_only

/-- The owner of the shop confirms it. -/
def ownerConfirms : DecideExecutionConfirmationInput :=
  ⟨"decision", "request", "shop", "owner", .confirmed⟩

/-- The owner's call goes out twice, then it is taken; a stranger's comes after. -/
def ownCalls : List DecideEvent :=
  [.elsewhere (.createRequest planOnlyRequest), .decideForWorkspace ownerConfirms,
    .decideForWorkspace ownerConfirms, .commit 0 requestDay, .settle 0,
    .decideForWorkspace { ownerConfirms with workspaceId := "rival" }, .commit 1 requestDay]

theorem decidesOwn_ownCalls :
    let service := runAll (DecideService.step plainConfirmationHost) ownCalls (.empty none)
    ∀ run ∈ service.runs, ∀ answer, run.answer = some answer → ∀ input ∈ run.callers,
      AnswersOwn service.tables input answer :=
  decidesOwn_run ownCalls none (by decide +kernel)

/-- The run is taken while a rejection from another workspace holds its promise. -/
def joinedCalls : List DecideEvent :=
  [.elsewhere (.createRequest planOnlyRequest), .decideForWorkspace ownerConfirms,
    .decideForWorkspace ⟨"other", "request", "rival", "stranger", .rejected⟩,
    .commit 0 requestDay]

/-- **A stranger who rejects is told of a confirmation**: its call joins the owner's run. -/
theorem not_decidesOwn : ¬ ∀ (events : List DecideEvent)
    (authorities : Option (OrderedMap String PendingConfirmationAuthority)),
    let service := runAll (DecideService.step plainConfirmationHost) events (.empty authorities)
    ∀ run ∈ service.runs, ∀ answer, run.answer = some answer → ∀ input ∈ run.callers,
      AnswersOwn service.tables input answer := by
  intro h
  -- the run is answered with a confirmation, and the stranger holds its promise
  have hjoined : (runAll (DecideService.step plainConfirmationHost) joinedCalls
      (.empty none)).runs.any (fun run => run.answer.any (fun answer => match answer with
        | .ok result => decide (result.decision.decision = .confirmed)
        | .error _ => false) &&
      run.callers.any (·.decision = .rejected)) = true := by decide +kernel
  obtain ⟨run, hrun, hboth⟩ := List.any_eq_true.mp hjoined
  obtain ⟨hanswered, hcallers⟩ := Bool.and_eq_true_iff.mp hboth
  obtain ⟨answer, hanswer, hconfirmed⟩ := Option.any_eq_true _ _ |>.mp hanswered
  obtain ⟨input, hinput, hrejected⟩ := List.any_eq_true.mp hcallers
  have hown := h joinedCalls none run hrun answer hanswer input hinput
  cases answer with
  | error thrown => exact nomatch hconfirmed
  | ok result =>
    have hsame := hown.1.decision
    rw [of_decide_eq_true hconfirmed, of_decide_eq_true hrejected] at hsame
    exact nomatch hsame

end MeiyeAgent
