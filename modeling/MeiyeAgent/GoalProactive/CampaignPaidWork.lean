import Mathlib.Logic.Function.Basic
import MeiyeAgent.AgentSession.Confirmations
import MeiyeAgent.Foundation.Json
import MeiyeAgent.Machinery.Base64
import MeiyeAgent.Machinery.Histories

/-!
# GoalProactive/CampaignPaidWork — the two paid Works of a campaign

A campaign's Work 1 is produced once its plan is approved, its Work 2 once Work 1 is delivered.
Callers of `advance` and `advanceOpen` run side by side; each statement of the database and each
call of a port is one step.  Instants are those of the database, in milliseconds.
-/

namespace MeiyeAgent

open Histories

inductive WorkOrdinal
  | first | second
  deriving DecidableEq

/-- A result; `facts` is the rest of it as JSON. -/
structure CampaignPaidWorkResult where
  taskId : String
  threadId : String
  facts : Json

structure CampaignPaidWorkSubmission where
  agentThreadId : Option String := none
  idempotencyKey : String
  facts : Json

structure CampaignPaidWorkLifecycleRecord where
  campaignId : String
  campaignPlanRef : AgentRevisionRef
  planApprovalRequestId : String
  results : WorkOrdinal → Option CampaignPaidWorkResult := fun _ => none
  submissions : WorkOrdinal → CampaignPaidWorkSubmission
  workspaceId : String

/-! ## Delivery -/

/-- A row of `harness_runtime.task_requests`; the workspace is the one its request names. -/
structure TaskRequestRow where
  taskId : String
  workflowId : String
  runtimeId : String
  workspaceId : Option String
  deriving DecidableEq

structure HarnessAuditEvent where
  workflowId : String
  eventType : String
  deriving DecidableEq

structure HarnessTables where
  requests : List TaskRequestRow := []
  auditEvents : List HarnessAuditEvent := []
  deriving DecidableEq

/-- `Buffer.from(text, 'utf8').toString('base64url')`. -/
def base64url (text : String) : String :=
  String.ofList (((Base64.base64 text).toList.filter (· ≠ '=')).map fun c =>
    if c = '+' then '-' else if c = '/' then '_' else c)

def harnessRuntimeId (workspaceId logicalId : String) : String :=
  "harness.v1:" ++ base64url workspaceId ++ ":" ++ base64url logicalId

/-- SQL's `LIKE`: `%` is any text, `_` any character, and a backslash takes the next as it is. -/
def like : List Char → List Char → Bool
  | [], text => text.isEmpty
  | '%' :: pattern, text => text.tails.any (like pattern)
  | '_' :: pattern, text => match text with
    | [] => false
    | _ :: rest => like pattern rest
  | '\\' :: c :: pattern, text => match text with
    | [] => false
    | d :: rest => c = d && like pattern rest
  | c :: pattern, text => match text with
    | [] => false
    | d :: rest => c = d && like pattern rest

/-- The delivery of a request is in the audit. -/
def HarnessTables.isPackageDelivered (tables : HarnessTables) (request : TaskRequestRow) : Bool :=
  tables.auditEvents.any fun event =>
    event.workflowId = request.taskId ∧ event.eventType = "package_delivered"

/-- The query of `isDelivered` takes a request for one of the task. -/
def matchesTask (workspaceId taskId : String) (request : TaskRequestRow) : Bool :=
  let runtimeId := harnessRuntimeId workspaceId taskId
  request.workspaceId = some workspaceId ∧
    (request.workflowId = taskId ∨ like (taskId.toList ++ [':', '%']) request.workflowId.toList ∨
      request.taskId = runtimeId ∨ request.runtimeId = runtimeId)

def isDelivered (tables : HarnessTables) (workspaceId taskId : String) : Bool :=
  tables.requests.any fun request =>
    tables.isPackageDelivered request && matchesTask workspaceId taskId request

/-- Exact shapes only: `task-1` never adopts `task-12:plan-r1`. -/
def isPreparedAttemptRunIdForTask (runId taskId : String) : Bool :=
  let marker := (taskId ++ ":plan-r").toList
  marker.isPrefixOf runId.toList && match runId.toList.drop marker.length with
    | [] => false
    | c :: rest => c ≠ '0' && (c :: rest).all Char.isDigit

/-! ## The store -/

inductive CampaignWorkState
  | pending | claimed | complete
  deriving DecidableEq

/-- A row of `p1_campaign_paid_work_lifecycles`, with the two columns of each Work. -/
structure CampaignRow where
  record : CampaignPaidWorkLifecycleRecord
  state : WorkOrdinal → CampaignWorkState := fun _ => .pending
  claimedAt : WorkOrdinal → Option Int := fun _ => none

abbrev CampaignRows := String → Option CampaignRow

/-- `PostgresCampaignPaidWorkLifecycleStore.claimLeaseMs`. -/
def campaignClaimLeaseMs : Int := 60000

namespace PostgresCampaignPaidWorkLifecycleStore

def create (rows : CampaignRows) (record : CampaignPaidWorkLifecycleRecord) : CampaignRows :=
  match rows record.campaignId with
  | some _ => rows
  | none => Function.update rows record.campaignId (some { record })

def get (rows : CampaignRows) (workspaceId campaignId : String) : Option CampaignRow :=
  (rows campaignId).filter (·.record.workspaceId = workspaceId)

/-- The Works of a row that can be claimed at an instant. -/
def claimable (row : CampaignRow) (workOrdinal : WorkOrdinal) (now : Int) : Bool :=
  row.state workOrdinal = .pending ∨
    (row.state workOrdinal = .claimed ∧
      (row.claimedAt workOrdinal).any (· < now - campaignClaimLeaseMs))

/-- A row with one Work in another state. -/
def withWork (row : CampaignRow) (workOrdinal : WorkOrdinal) (state : CampaignWorkState)
    (claimedAt : Option Int) : CampaignRow :=
  { row with
    state := Function.update row.state workOrdinal state
    claimedAt := Function.update row.claimedAt workOrdinal claimedAt }

/-- The first statement of `claimWork`: the record of the claim, or none. -/
def claimWork (rows : CampaignRows) (workspaceId campaignId : String) (workOrdinal : WorkOrdinal)
    (now : Int) : Option (CampaignPaidWorkLifecycleRecord × CampaignRows) := do
  let row ← get rows workspaceId campaignId
  if claimable row workOrdinal now then
    return (row.record, Function.update rows campaignId
      (some (withWork row workOrdinal .claimed (some now))))
  else none

def completeWork (rows : CampaignRows) (workspaceId campaignId : String)
    (workOrdinal : WorkOrdinal) (result : CampaignPaidWorkResult) :
    Option (CampaignPaidWorkLifecycleRecord × CampaignRows) := do
  let row ← get rows workspaceId campaignId
  let record := { row.record with
    results := Function.update row.record.results workOrdinal
      (some ((row.record.results workOrdinal).getD result)) }
  return (record, Function.update rows campaignId
    (some (withWork { row with record } workOrdinal .complete none)))

def releaseWork (rows : CampaignRows) (workspaceId campaignId : String)
    (workOrdinal : WorkOrdinal) : CampaignRows :=
  match get rows workspaceId campaignId with
  | none => rows
  | some row =>
    if row.state workOrdinal = .claimed then
      Function.update rows campaignId (some (withWork row workOrdinal .pending none))
    else rows

/-- The open campaigns among those of a list, which orders them by their last update. -/
def listOpen (rows : CampaignRows) (order : List String) (limit : Nat) :
    List CampaignPaidWorkLifecycleRecord :=
  (order.filterMap fun campaignId =>
    ((rows campaignId).filter (·.state .second ≠ .complete)).map (·.record)).take limit

end PostgresCampaignPaidWorkLifecycleStore

/-! ## Callers -/

/-- A claimed Work; `claimant` tells the claims of all callers apart. -/
structure CampaignClaim where
  workspaceId : String
  campaignId : String
  workOrdinal : WorkOrdinal
  claimant : Nat

/-- Where a call of `advance` stands. -/
inductive CampaignPhase
  | reading (workspaceId campaignId : String)
  | approving (record : CampaignPaidWorkLifecycleRecord)
  | claiming (record : CampaignPaidWorkLifecycleRecord) (workOrdinal : WorkOrdinal)
  | rereading (record : CampaignPaidWorkLifecycleRecord) (workOrdinal : WorkOrdinal)
  | starting (claim : CampaignClaim) (campaignPlanRef : AgentRevisionRef)
      (submission : CampaignPaidWorkSubmission)
  | producing (claim : CampaignClaim)
  | completing (claim : CampaignClaim) (result : CampaignPaidWorkResult)
  | releasing (claim : CampaignClaim)
  | delivering (record : CampaignPaidWorkLifecycleRecord) (first : CampaignPaidWorkResult)
  | ended

/-- A caller, with the campaigns it has yet to advance. -/
structure CampaignCaller where
  queue : List (String × String) := []
  phase : CampaignPhase

/-- What has happened: what a port has answered, and the Works that were claimed, started and
ended. -/
inductive CampaignEntry
  | confirmed (workspaceId requestId : String)
  | delivered (workspaceId taskId : String) (tables : HarnessTables)
  | claimed (campaignId : String) (workOrdinal : WorkOrdinal) (claimant : Nat) (now : Int)
  | started (campaignId : String) (workOrdinal : WorkOrdinal) (claimant : Nat)
      (campaignPlanRef : AgentRevisionRef) (submission : CampaignPaidWorkSubmission)
  | ended (campaignId : String) (workOrdinal : WorkOrdinal) (claimant : Nat)

/-- The rows, the claimant each claim is of, the callers and the log. -/
structure CampaignState where
  rows : CampaignRows := fun _ => none
  claimants : String → WorkOrdinal → Option Nat := fun _ _ => none
  callers : Nat → Option CampaignCaller := fun _ => none
  log : List CampaignEntry := []

/-- What a caller steps on; a claimant begins production in a turn of its own. -/
inductive CampaignMove
  | start (record : CampaignPaidWorkLifecycleRecord)
  | advance (workspaceId campaignId : String)
  | advanceOpen (order : List String) (limit : Nat)
  | statement (fate : Fate) (now : Int)
  | confirmed (answer : Option Bool)
  | delivery (fate : Fate) (tables : HarnessTables)
  | begins
  | produced (result : Option CampaignPaidWorkResult)
  | crash

/-- The claimant of one Work is another. -/
def withClaimant (claimants : String → WorkOrdinal → Option Nat) (campaignId : String)
    (workOrdinal : WorkOrdinal) (claimant : Option Nat) : String → WorkOrdinal → Option Nat :=
  Function.update claimants campaignId
    (Function.update (claimants campaignId) workOrdinal claimant)

namespace CampaignState

open PostgresCampaignPaidWorkLifecycleStore

def put (s : CampaignState) (i : Nat) (caller : CampaignCaller) (phase : CampaignPhase) :
    CampaignState :=
  { s with callers := Function.update s.callers i (some { caller with phase }) }

def note (s : CampaignState) (entry : CampaignEntry) : CampaignState :=
  { s with log := s.log ++ [entry] }

/-- A caller goes on to its next campaign. -/
def next (s : CampaignState) (i : Nat) (caller : CampaignCaller) : CampaignState :=
  match caller.queue with
  | [] => s.put i caller .ended
  | (workspaceId, campaignId) :: queue =>
    s.put i { caller with queue } (.reading workspaceId campaignId)

/-- `advance` once Work 1 is behind it. -/
def afterFirst (s : CampaignState) (i : Nat) (caller : CampaignCaller)
    (record : CampaignPaidWorkLifecycleRecord) : CampaignState :=
  match record.results .first, record.results .second with
  | some first, none => s.put i caller (.delivering record first)
  | _, _ => s.next i caller

/-- `advance` once `produceWork` has returned. -/
def proceed (s : CampaignState) (i : Nat) (caller : CampaignCaller)
    (record : CampaignPaidWorkLifecycleRecord) : WorkOrdinal → CampaignState
  | .first => s.afterFirst i caller record
  | .second => s.next i caller

def stepRead (s : CampaignState) (i : Nat) (caller : CampaignCaller)
    (workspaceId campaignId : String) (fate : Fate) : CampaignState :=
  match fate, get s.rows workspaceId campaignId with
  | .answered, some row =>
    if (row.record.results .first).isNone then s.put i caller (.approving row.record)
    else s.afterFirst i caller row.record
  | _, _ => s.put i caller .ended

/-- The submission a Work is produced from. -/
def submissionOf (record : CampaignPaidWorkLifecycleRecord) (workOrdinal : WorkOrdinal) :
    CampaignPaidWorkSubmission :=
  match workOrdinal, record.results .first with
  | .second, some first =>
    { record.submissions .second with agentThreadId := some first.threadId }
  | _, _ => record.submissions workOrdinal

def stepClaim (s : CampaignState) (i : Nat) (caller : CampaignCaller)
    (record : CampaignPaidWorkLifecycleRecord) (workOrdinal : WorkOrdinal) (fate : Fate)
    (now : Int) : CampaignState :=
  let claim : CampaignClaim :=
    { workspaceId := record.workspaceId
      campaignId := record.campaignId
      workOrdinal
      claimant := s.log.length }
  match fate, claimWork s.rows record.workspaceId record.campaignId workOrdinal now with
  | .answered, none => s.put i caller (.rereading record workOrdinal)
  | .answered, some (claimed, rows) =>
    (({ s with
      rows
      claimants := withClaimant s.claimants record.campaignId workOrdinal (some claim.claimant)
      : CampaignState }).note (.claimed record.campaignId workOrdinal claim.claimant now)).put i
        caller (.starting claim claimed.campaignPlanRef (submissionOf claimed workOrdinal))
  | .lost, some (_, rows) =>
    ({ s with
      rows
      claimants := withClaimant s.claimants record.campaignId workOrdinal none
      : CampaignState }).put i caller .ended
  | _, _ => s.put i caller .ended

def stepReread (s : CampaignState) (i : Nat) (caller : CampaignCaller)
    (record : CampaignPaidWorkLifecycleRecord) (workOrdinal : WorkOrdinal) (fate : Fate) :
    CampaignState :=
  match fate, get s.rows record.workspaceId record.campaignId with
  | .answered, some row => s.proceed i caller row.record workOrdinal
  | _, _ => s.put i caller .ended

def stepComplete (s : CampaignState) (i : Nat) (caller : CampaignCaller) (claim : CampaignClaim)
    (result : CampaignPaidWorkResult) (fate : Fate) : CampaignState :=
  let done := CampaignEntry.ended claim.campaignId claim.workOrdinal claim.claimant
  match fate, completeWork s.rows claim.workspaceId claim.campaignId claim.workOrdinal result with
  | .answered, some (record, rows) =>
    ({ s with rows }.note done).proceed i caller record claim.workOrdinal
  | .lost, some (_, rows) => ({ s with rows }.note done).put i caller .ended
  | _, _ => s.put i caller .ended

/-- The error of the producer is thrown again. -/
def stepRelease (s : CampaignState) (i : Nat) (caller : CampaignCaller) (claim : CampaignClaim)
    (fate : Fate) : CampaignState :=
  match fate with
  | .failed => s.put i caller .ended
  | _ =>
    ({ s with rows := releaseWork s.rows claim.workspaceId claim.campaignId claim.workOrdinal }.note
      (.ended claim.campaignId claim.workOrdinal claim.claimant)).put i caller .ended

def stepDeliver (s : CampaignState) (i : Nat) (caller : CampaignCaller)
    (record : CampaignPaidWorkLifecycleRecord) (first : CampaignPaidWorkResult) (fate : Fate)
    (tables : HarnessTables) : CampaignState :=
  match fate with
  | .answered =>
    if isDelivered tables record.workspaceId first.taskId then
      (s.note (.delivered record.workspaceId first.taskId tables)).put i caller
        (.claiming record .second)
    else s.next i caller
  | _ => s.put i caller .ended

/-- One step of one caller; a move that is not its next leaves it where it is. -/
def step (s : CampaignState) : Nat × CampaignMove → CampaignState
  | (i, move) =>
    match s.callers i, move with
    | _, .start record => { s with rows := create s.rows record }
    | none, .advance workspaceId campaignId =>
      s.put i { phase := .ended } (.reading workspaceId campaignId)
    | none, .advanceOpen order limit =>
      s.next i
        { queue := (listOpen s.rows order limit).map fun record =>
            (record.workspaceId, record.campaignId)
          phase := .ended }
    | none, _ => s
    | some caller, .crash => s.put i caller .ended
    | some caller, move =>
      match caller.phase, move with
      | .reading workspaceId campaignId, .statement fate _ =>
        s.stepRead i caller workspaceId campaignId fate
      | .approving record, .confirmed (some true) =>
        (s.note (.confirmed record.workspaceId record.planApprovalRequestId)).put i caller
          (.claiming record .first)
      | .approving _, .confirmed (some false) => s.next i caller
      | .approving _, .confirmed none => s.put i caller .ended
      | .claiming record workOrdinal, .statement fate now =>
        s.stepClaim i caller record workOrdinal fate now
      | .rereading record workOrdinal, .statement fate _ =>
        s.stepReread i caller record workOrdinal fate
      | .starting claim campaignPlanRef submission, .begins =>
        (s.note (.started claim.campaignId claim.workOrdinal claim.claimant campaignPlanRef
          submission)).put i caller (.producing claim)
      | .producing claim, .produced (some result) => s.put i caller (.completing claim result)
      | .producing claim, .produced none => s.put i caller (.releasing claim)
      | .completing claim result, .statement fate _ => s.stepComplete i caller claim result fate
      | .releasing claim, .statement fate _ => s.stepRelease i caller claim fate
      | .delivering record first, .delivery fate tables =>
        s.stepDeliver i caller record first fate tables
      | _, _ => s

end CampaignState

end MeiyeAgent
