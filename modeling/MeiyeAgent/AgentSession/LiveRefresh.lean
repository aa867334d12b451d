import MeiyeAgent.AgentSession.MarketingPlanStore
import MeiyeAgent.JobRuntime.JobFingerprints

/-!
# AgentSession/LiveRefresh — a plan refreshed in its live bindings

`refreshLiveBindings` appends one more revision that differs from its source in the bindings of
quote, facts and rights; a marker in it tells a call that comes again that the revision is its own.
Between two reads of the store, and between a read and the append, other calls take their steps.

* `LiveSuccessor`, `LiveRefreshed` — what a refresh changes, and what a run of calls leaves behind.
* `rank_run` — a call that takes six steps has ended.
-/

namespace MeiyeAgent

/-! ## Calls -/

/-- `now` is the text of the clock where it is not given. -/
structure RefreshPlanLiveBindingsInput where
  planId : String
  expectedRevision : Nat
  quoteRef : AgentRevisionRef
  rightsRevisionRefs : List String
  factRevisionRefs : List String
  now : String
  workspaceId : String

/-- A call, and whether it projects its event after the append. -/
structure LiveRefreshCall where
  input : RefreshPlanLiveBindingsInput
  emitAfterAppend : Bool

structure RefreshPlanLiveBindingsResult where
  artifact : PlanArtifact
  factRevisionRefs : List String

inductive PlanCompilerErrorCode
  | PLAN_NOT_FOUND
  | PLAN_EVENT_WORKSPACE_REQUIRED
  | PLAN_LIVE_REFRESH_CONFLICT
  deriving DecidableEq

/-- What a call throws: its own errors, a `ZodError`, what the store throws, the `TypeError` of a
digest of nothing, or what the projector throws. -/
inductive LiveRefreshError
  | compiler (code : PlanCompilerErrorCode) (message : String)
  | schema
  | store (error : PlanStoreError)
  | typeError
  | projection

/-- What the compiler is set up with: `z.iso.datetime`, the digest, and the digest of a revision
without its own. -/
structure LiveRefreshSetup where
  isDatetime : String → Bool
  sha256 : List Char → String
  contentHash : PlanRevision → String

/-! ## The successor -/

def Json.texts (values : List String) : Json := .array (values.map .text)

/-- `liveBindingRefresh`: what a call asks for, as JSON. -/
def RefreshPlanLiveBindingsInput.bindings (input : RefreshPlanLiveBindingsInput) : Json :=
  .object [("sourcePlanRevision", .ofNat input.expectedRevision),
    ("quoteRef", input.quoteRef.toJson),
    ("rightsRevisionRefs", .texts input.rightsRevisionRefs),
    ("factRevisionRefs", .texts input.factRevisionRefs)]

/-- The revision a call asks for, before it is parsed. -/
def liveDraft (source : PlanRevision) (input : RefreshPlanLiveBindingsInput) : PlanRevision :=
  { source with
    revision := input.expectedRevision + 1
    quoteRef := input.quoteRef
    factUsages := input.factRevisionRefs.map fun factRef => .object [("factRef", .text factRef)]
    rightsSummary := .object [("source", .text "live_execution_fence"),
      ("revisionIds", .texts input.rightsRevisionRefs), ("previous", source.rightsSummary)]
    capabilitySummary := .object [("source", .text "live_execution_fence"),
      ("previous", source.capabilitySummary), ("liveBindingRefresh", input.bindings)]
    boundRevisions := { source.boundRevisions with rightsRevisionIds := input.rightsRevisionRefs }
    contentHash := "pending"
    createdAt := input.now }

/-- The marker of a revision, `none` where it has none. -/
def liveMarker (revision : PlanRevision) : Option Json :=
  revision.capabilitySummary.field? "liveBindingRefresh"

section Setup

variable (setup : LiveRefreshSetup)

def liveRevision (source : PlanRevision) (input : RefreshPlanLiveBindingsInput) :
    Option PlanRevision := do
  let draft ← (liveDraft source input).parse setup.isDatetime
  PlanRevision.parse setup.isDatetime { draft with contentHash := setup.contentHash draft }

def fingerprintOf (json : Json) : String := fingerprintValue setup.sha256 (.ofJson json)

def assertMatchingLiveRefresh (artifact : PlanArtifact) (input : RefreshPlanLiveBindingsInput) :
    Except LiveRefreshError RefreshPlanLiveBindingsResult :=
  match liveMarker artifact.revision with
  | none => throw .typeError
  | some marker =>
    if fingerprintOf setup marker ≠ fingerprintOf setup input.bindings then
      throw (.compiler .PLAN_LIVE_REFRESH_CONFLICT ("Plan " ++ input.planId ++ "@" ++
        toString artifact.revision.revision ++ " is not the requested live binding successor."))
    else pure ⟨artifact, input.factRevisionRefs⟩

/-! ## Steps -/

/-- Where a call stands, between two of its awaits. -/
inductive RefreshPhase
  | called
  | sourceRead (source : PlanArtifact)
  | latestRead (source : PlanArtifact) (existing : Option PlanArtifact)
  /-- the event is projected; a failure behind an append is caught -/
  | projecting (result : RefreshPlanLiveBindingsResult) (appended : Bool)
  | caught (error : LiveRefreshError)
  | done (answer : Except LiveRefreshError RefreshPlanLiveBindingsResult)

/-- What was matched or appended, on its way back. -/
def LiveRefreshCall.emit (call : LiveRefreshCall) (appended : Bool) :
    Except LiveRefreshError RefreshPlanLiveBindingsResult → RefreshPhase
  | .ok result => if call.emitAfterAppend then .projecting result appended else .done (.ok result)
  | .error error => .done (.error error)

def missingSource (input : RefreshPlanLiveBindingsInput) : LiveRefreshError :=
  .compiler .PLAN_NOT_FOUND ("Plan revision " ++ input.planId ++ "@" ++
    toString input.expectedRevision ++ " was not found.")

def missingWorkspace : LiveRefreshError :=
  .compiler .PLAN_EVENT_WORKSPACE_REQUIRED
    "A durable plan semantic event requires an explicit workspace resource."

def advanced (input : RefreshPlanLiveBindingsInput) (existing : Option PlanArtifact) :
    LiveRefreshError :=
  .compiler .PLAN_LIVE_REFRESH_CONFLICT ("Plan " ++ input.planId ++ " advanced to revision " ++
    (match existing with
      | some artifact => toString artifact.revision.revision
      | none => "missing") ++ " before live binding refresh.")

/-- The append of what was parsed, and what follows it. -/
def appendSuccessor (call : LiveRefreshCall) (store : MemoryMarketingPlanStore)
    (source : PlanArtifact) : Option PlanRevision → RefreshPhase × MemoryMarketingPlanStore
  | none => (.done (.error .schema), store)
  | some revision =>
    match store.append setup.isDatetime { revision, executionPlan := source.executionPlan } with
    | .ok (stored, store') =>
      (call.emit true (.ok ⟨stored, call.input.factRevisionRefs⟩), store')
    | .error error => (.caught (.store error), store)

/-- **A step of a call**, up to its next await; `projected` is whether the projector returns. -/
def LiveRefreshCall.advance (call : LiveRefreshCall) (store : MemoryMarketingPlanStore)
    (projected : Bool) :
    RefreshPhase → RefreshPhase × MemoryMarketingPlanStore
  | .called =>
    match store.getRevision call.input.planId call.input.expectedRevision with
    | none => (.done (.error (missingSource call.input)), store)
    | some source => (.sourceRead source, store)
  | .sourceRead source =>
    if Text.isBlank call.input.workspaceId then (.done (.error missingWorkspace), store)
    else (.latestRead source (store.getLatest call.input.planId), store)
  | .latestRead source existing =>
    match existing.filter (·.revision.revision = call.input.expectedRevision + 1) with
    | some artifact =>
      (call.emit false (assertMatchingLiveRefresh setup artifact call.input), store)
    | none =>
      if existing.map (·.revision.revision) ≠ some call.input.expectedRevision then
        (.done (.error (advanced call.input existing)), store)
      else appendSuccessor setup call store source (liveRevision setup source.revision call.input)
  | .projecting result appended =>
    if projected then (.done (.ok result), store)
    else if appended then (.caught .projection, store)
    else (.done (.error .projection), store)
  | .caught error =>
    match (store.getLatest call.input.planId).filter
      (·.revision.revision = call.input.expectedRevision + 1) with
    | some raced => (call.emit false (assertMatchingLiveRefresh setup raced call.input), store)
    | none => (.done (.error error), store)
  | .done answer => (.done answer, store)

/-- A store, and the calls that are made on it. -/
structure LiveRefreshState where
  store : MemoryMarketingPlanStore
  phases : Nat → RefreshPhase

namespace LiveRefreshState

/-- One call takes a step. -/
def step (calls : Nat → LiveRefreshCall) (s : LiveRefreshState) :
    Nat × Bool → LiveRefreshState
  | (i, projected) =>
    let after := (calls i).advance setup s.store projected (s.phases i)
    { store := after.2, phases := Function.update s.phases i after.1 }

/-- **A run of calls**, their steps in any order. -/
def refresh (calls : Nat → LiveRefreshCall) (moves : List (Nat × Bool))
    (store : MemoryMarketingPlanStore) : LiveRefreshState :=
  Effect.runAll (step setup calls) moves { store, phases := fun _ => .called }

end LiveRefreshState

end Setup

/-! ### How long a call takes -/

/-- How many steps a call may still take. -/
def RefreshPhase.rank : RefreshPhase → Nat
  | .called => 6
  | .sourceRead _ => 5
  | .latestRead _ _ => 4
  | .projecting _ appended => bif appended then 3 else 1
  | .caught _ => 2
  | .done _ => 0

theorem rank_emit (call : LiveRefreshCall) (appended : Bool)
    (answer : Except LiveRefreshError RefreshPlanLiveBindingsResult) :
    (call.emit appended answer).rank ≤ bif appended then 3 else 1 := by
  cases answer with
  | ok result =>
    rw [LiveRefreshCall.emit]
    split
    · exact le_rfl
    · exact Nat.zero_le _
  | error error => exact Nat.zero_le _

theorem rank_appendSuccessor (setup : LiveRefreshSetup) (call : LiveRefreshCall)
    (store : MemoryMarketingPlanStore) (source : PlanArtifact) (revision : Option PlanRevision) :
    (appendSuccessor setup call store source revision).1.rank ≤ 3 := by
  cases revision with
  | none => exact Nat.zero_le 3
  | some revision =>
    rw [appendSuccessor]
    split
    · dsimp only
      exact rank_emit call true _
    · exact Nat.le_succ 2

/-- **Each step brings a call nearer to its end.** -/
theorem rank_advance (setup : LiveRefreshSetup) (call : LiveRefreshCall)
    (store : MemoryMarketingPlanStore) (projected : Bool) (phase : RefreshPhase) :
    (call.advance setup store projected phase).1.rank ≤ phase.rank - 1 := by
  cases phase with
  | called =>
    rw [LiveRefreshCall.advance]
    split
    · exact Nat.zero_le _
    · exact le_rfl
  | sourceRead source =>
    rw [LiveRefreshCall.advance]
    split
    · exact Nat.zero_le _
    · exact le_rfl
  | latestRead source existing =>
    rw [LiveRefreshCall.advance]
    split
    · exact (rank_emit call false _).trans (Nat.le_add_left 1 2)
    · split
      · exact Nat.zero_le _
      · exact rank_appendSuccessor ..
  | projecting result appended =>
    rw [LiveRefreshCall.advance]
    split
    · exact Nat.zero_le _
    · cases appended
      · exact le_rfl
      · exact le_rfl
  | caught error =>
    rw [LiveRefreshCall.advance]
    split
    · exact rank_emit call false _
    · exact Nat.zero_le _
  | done answer => exact le_rfl

/-- **A call that takes six steps has ended.** -/
theorem rank_run (setup : LiveRefreshSetup) (calls : Nat → LiveRefreshCall) (i : Nat) :
    ∀ (moves : List (Nat × Bool)) (s : LiveRefreshState),
      ((Effect.runAll (LiveRefreshState.step setup calls) moves s).phases i).rank ≤
        (s.phases i).rank - (moves.filter (·.1 = i)).length
  | [], s => le_rfl
  | (j, projected) :: moves, s => by
    have hrest := rank_run setup calls i moves (s.step setup calls (j, projected))
    rw [Effect.runAll_cons]
    by_cases heq : j = i
    · subst heq
      have hstep : ((s.step setup calls (j, projected)).phases j).rank ≤
          (s.phases j).rank - 1 := by
        rw [LiveRefreshState.step]
        dsimp only
        rw [Function.update_self]
        exact rank_advance ..
      rw [List.filter_cons_of_pos (by simp), List.length_cons]
      omega
    · have hstep : (s.step setup calls (j, projected)).phases i = s.phases i :=
        Function.update_of_ne (Ne.symm heq) _ _
      rw [List.filter_cons_of_neg (by simpa using heq)]
      rwa [hstep] at hrest

/-! ## Laws -/

section Laws

/-- Two calls ask for the same bindings. -/
structure RefreshPlanLiveBindingsInput.Binds (input input' : RefreshPlanLiveBindingsInput) :
    Prop where
  quoteRef : input.quoteRef = input'.quoteRef
  rights : input.rightsRevisionRefs = input'.rightsRevisionRefs
  facts : input.factRevisionRefs = input'.factRevisionRefs

/-- **A successor changes only the live bindings** of its source: put back, they leave the source,
and they are those that were asked for. -/
structure LiveSuccessor (source : PlanArtifact) (input : RefreshPlanLiveBindingsInput)
    (row : PlanArtifact) : Prop where
  revision : row.revision.revision = source.revision.revision + 1
  executionPlan : row.executionPlan = source.executionPlan
  kept : { row.revision with
    revision := source.revision.revision
    quoteRef := source.revision.quoteRef
    factUsages := source.revision.factUsages
    rightsSummary := source.revision.rightsSummary
    capabilitySummary := source.revision.capabilitySummary
    boundRevisions := { row.revision.boundRevisions with
      rightsRevisionIds := source.revision.boundRevisions.rightsRevisionIds }
    contentHash := source.revision.contentHash
    createdAt := source.revision.createdAt } = source.revision
  quoteRef : input.quoteRef.parse = some row.revision.quoteRef
  facts : row.revision.factUsages =
    input.factRevisionRefs.map fun factRef => .object [("factRef", .text factRef)]
  rights : input.rightsRevisionRefs.mapM parseTrimmed =
    some row.revision.boundRevisions.rightsRevisionIds
  marker : liveMarker row.revision = some input.bindings

variable (setup : LiveRefreshSetup)

/-- The marker of a row is that of the bindings asked for. -/
def Marks (row : PlanArtifact) (input : RefreshPlanLiveBindingsInput) : Prop :=
  ∃ marker, liveMarker row.revision = some marker ∧
    fingerprintOf setup marker = fingerprintOf setup input.bindings

/-- The row is the successor a call asks for. -/
def IsSuccessor (input : RefreshPlanLiveBindingsInput) (row : PlanArtifact) : Prop :=
  row.revision.revision = input.expectedRevision + 1 ∧ Marks setup row input

/-- **Why a call fails**: it names no workspace, its successor would be refused by the schema, the
event of its successor was not projected, or the plan has gone on to another revision. -/
def Refused (source : PlanArtifact) (input : RefreshPlanLiveBindingsInput)
    (latest : Option PlanArtifact) (error : LiveRefreshError) : Prop :=
  Text.isBlank input.workspaceId = true ∨ liveRevision setup source.revision input = none ∨
    (error = .projection ∧ ∃ row, latest = some row ∧ IsSuccessor setup input row) ∨
    ∃ row, latest = some row ∧ row.revision.revision ≠ input.expectedRevision ∧
      ¬ IsSuccessor setup input row

/-- **What refreshing a revision leaves behind**: the `rows` the plan had `before`, or one more. -/
structure LiveRefreshed (source : PlanArtifact) (planId : String)
    (calls : Nat → LiveRefreshCall) (before : MemoryMarketingPlanStore) (s : LiveRefreshState) :
    Prop where
  /-- one successor is appended, if any, for the bindings of a call -/
  appended : s.store.rowsOf planId = before.rowsOf planId ∨
    ∃ i row, s.store.rowsOf planId = before.rowsOf planId ++ [row] ∧
      LiveSuccessor source (calls i).input row ∧
      ∀ j result, s.phases j = .done (.ok result) → (calls j).input.Binds (calls i).input
  /-- a revision stands in one row -/
  unique : ∀ row ∈ s.store.rowsOf planId, ∀ row' ∈ s.store.rowsOf planId,
    row.revision.revision = row'.revision.revision → row = row'
  /-- the other plans are as they were -/
  others : ∀ other, other ≠ planId → s.store.rowsOf other = before.rowsOf other
  /-- a call returns the successor, which is its own -/
  returned : ∀ i result, s.phases i = .done (.ok result) → ∃ row,
    (s.store.rowsOf planId).getLast? = some row ∧ IsSuccessor setup (calls i).input row ∧
      result = ⟨row, (calls i).input.factRevisionRefs⟩
  /-- calls that return have asked for the same bindings -/
  alike : ∀ i j result result', s.phases i = .done (.ok result) →
    s.phases j = .done (.ok result') →
      result.artifact = result'.artifact ∧ (calls i).input.Binds (calls j).input
  failed : ∀ i error, s.phases i = .done (.error error) →
    Refused setup source (calls i).input (s.store.rowsOf planId).getLast? error
  /-- a call that has ended, and may append behind its source, has seen a successor appended -/
  one : ∀ i answer, s.phases i = .done answer →
    (before.rowsOf planId).getLast?.map (·.revision.revision) = some source.revision.revision →
    Text.isBlank (calls i).input.workspaceId = false →
    liveRevision setup source.revision (calls i).input ≠ none →
      s.store.rowsOf planId ≠ before.rowsOf planId

end Laws

end MeiyeAgent
