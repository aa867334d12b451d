import MeiyeAgent.Harness.PlanAdmission

/-!
# Harness/PlanStores — the stores of admitted plans

A plan is written once under its hash, and a workflow has one.  What is written again is the row
that stands, where it is the same plan of the same workflow, and a conflict otherwise.  One store
holds maps, the other the table `p1_execution_plan_snapshots`, whose payloads are read by the schema
each time; both keep what they are handed (`ExecutionPlanSnapshotStore.written`).
-/

namespace MeiyeAgent

open Effect

variable {ρ : Type}

/-- A hash that stands for another admission. -/
def immutableConflict (snapshotHash : String) : PlanAdmissionError :=
  .refused .IDEMPOTENCY_CONFLICT ("ExecutionPlanSnapshot " ++ snapshotHash ++
    " is immutable and already bound to a different admission row.")

/-- A row as the schema reads it. -/
def parseAdmitted (host : PlanHost ρ) (row : AdmittedExecutionPlanSnapshot ρ) :
    Except PlanAdmissionError (AdmittedExecutionPlanSnapshot ρ) :=
  match host.parseSnapshot row.snapshot with
  | none => .error .schema
  | some snapshot => .ok { row with snapshot }

theorem parseAdmitted_eq_ok {host : PlanHost ρ} {row parsed : AdmittedExecutionPlanSnapshot ρ} :
    parseAdmitted host row = .ok parsed ↔
      host.parseSnapshot row.snapshot = some parsed.snapshot ∧
        parsed = { row with snapshot := parsed.snapshot } := by
  rw [parseAdmitted]
  cases hparse : host.parseSnapshot row.snapshot with
  | none => exact iff_of_false nofun nofun
  | some snapshot =>
    rw [Except.ok.injEq]
    constructor
    · rintro rfl
      exact ⟨rfl, rfl⟩
    · rintro ⟨hsnapshot, hparsed⟩
      rw [hparsed, Option.some.inj hsnapshot]

variable [DecidableEq ρ]

/-- Whether a row is that of an admission. -/
def AdmittedExecutionPlanSnapshot.isAdmissionOf (existing row : AdmittedExecutionPlanSnapshot ρ) :
    Bool :=
  existing.workflowId = row.workflowId ∧ existing.workspaceId = row.workspaceId ∧
    existing.snapshot = row.snapshot

/-! ## In memory -/

/-- The rows by their hashes, and the hashes by the workflows. -/
structure PlanMaps (ρ : Type) where
  byHash : OrderedMap String (AdmittedExecutionPlanSnapshot ρ) := .empty
  byWorkflow : OrderedMap String String := .empty

namespace MemoryExecutionPlanSnapshotStore

variable (host : PlanHost ρ)

def putImmutable (row : AdmittedExecutionPlanSnapshot ρ) :
    EStateM PlanAdmissionError (PlanMaps ρ) (AdmittedExecutionPlanSnapshot ρ) := do
  let normalized ← check (parseAdmitted host row)
  let snapshotHash := normalized.snapshot.snapshotHash
  let maps ← get
  match maps.byHash.get? snapshotHash with
  | some existing =>
    if existing.isAdmissionOf normalized then return existing
    else throw (immutableConflict snapshotHash)
  | none =>
    match truthy (maps.byWorkflow.get? normalized.workflowId) |>.filter (· ≠ snapshotHash) with
    | some existing => throw (.refused .IDEMPOTENCY_CONFLICT ("Workflow " ++
        normalized.workflowId ++ " already admitted snapshot " ++ existing ++ "."))
    | none =>
      check (host.assertExecutionPlanPublishable normalized.snapshot.content)
      set { byHash := maps.byHash.set snapshotHash normalized
            byWorkflow := maps.byWorkflow.set normalized.workflowId snapshotHash : PlanMaps ρ }
      return normalized

def getByHash (snapshotHash : String) :
    EStateM PlanAdmissionError (PlanMaps ρ) (Option (AdmittedExecutionPlanSnapshot ρ)) := do
  return (← get).byHash.get? snapshotHash

def getByWorkflowId (workflowId : String) :
    EStateM PlanAdmissionError (PlanMaps ρ) (Option (AdmittedExecutionPlanSnapshot ρ)) := do
  match truthy ((← get).byWorkflow.get? workflowId) with
  | none => return none
  | some hash => getByHash hash

end MemoryExecutionPlanSnapshotStore

/-- **The maps keep what they are handed.** -/
def memoryExecutionPlanSnapshotStore (host : PlanHost ρ) :
    ExecutionPlanSnapshotStore host (PlanMaps ρ) where
  putImmutable := MemoryExecutionPlanSnapshotStore.putImmutable host
  getByHash := MemoryExecutionPlanSnapshotStore.getByHash
  getByWorkflowId := MemoryExecutionPlanSnapshotStore.getByWorkflowId
  written row s := by
    simp only [MemoryExecutionPlanSnapshotStore.putImmutable, wp_bind, wp_check, wp_get]
    refine ⟨fun normalized hparse => ?_, fun _ _ => trivial⟩
    obtain ⟨hparse, -⟩ := parseAdmitted_eq_ok.mp hparse
    split
    · next existing _ =>
      rw [wp_ite]
      refine ⟨fun hsame => ?_, fun _ => (wp_throw _).mpr trivial⟩
      rw [wp_pure, (of_decide_eq_true hsame).2.2, hparse]
    · split
      · exact (wp_throw _).mpr trivial
      · simp only [wp_bind, wp_check, wp_set, wp_pure]
        exact ⟨fun _ _ => hparse, fun _ _ => trivial⟩

/-! ## In the table -/

/-- A row of `p1_execution_plan_snapshots`, of whose columns these are read back. -/
structure SnapshotRow (ρ : Type) where
  snapshotHash : String
  workflowId : String
  workspaceId : String
  admittedAt : String
  payload : ExecutionPlanSnapshot ρ

namespace PostgresExecutionPlanSnapshotStore

variable (host : PlanHost ρ)

/-- `parseRow`. -/
def SnapshotRow.parse (row : SnapshotRow ρ) :
    Except PlanAdmissionError (AdmittedExecutionPlanSnapshot ρ) :=
  parseAdmitted host ⟨row.payload, row.workflowId, row.workspaceId, row.admittedAt⟩

/-- The row a query finds, read. -/
def selectBy (finds : SnapshotRow ρ → Bool) :
    EStateM PlanAdmissionError (List (SnapshotRow ρ))
      (Option (AdmittedExecutionPlanSnapshot ρ)) := do
  check (((← get).find? finds).mapM (SnapshotRow.parse host))

def getByHash (snapshotHash : String) :
    EStateM PlanAdmissionError (List (SnapshotRow ρ))
      (Option (AdmittedExecutionPlanSnapshot ρ)) :=
  selectBy host (·.snapshotHash = snapshotHash)

def getByWorkflowId (workflowId : String) :
    EStateM PlanAdmissionError (List (SnapshotRow ρ))
      (Option (AdmittedExecutionPlanSnapshot ρ)) :=
  selectBy host (·.workflowId = workflowId)

/-- The `INSERT`: nothing is done where the hash is there, and a workflow has one row. -/
def insertSnapshot (row : SnapshotRow ρ) :
    EStateM PlanAdmissionError (List (SnapshotRow ρ)) Unit := do
  let table ← get
  if table.any (·.snapshotHash = row.snapshotHash) then pure ()
  else if table.any (·.workflowId = row.workflowId) then
    throw (.database ("duplicate key value violates unique constraint " ++
      "\"p1_execution_plan_snapshots_workflow_id_key\""))
  else set (table ++ [row])

/-- A row that has been found, where it is that of the admission. -/
def answer (row : AdmittedExecutionPlanSnapshot ρ) :
    Option (AdmittedExecutionPlanSnapshot ρ) →
      EStateM PlanAdmissionError (List (SnapshotRow ρ)) (AdmittedExecutionPlanSnapshot ρ)
  | some persisted =>
    if persisted.isAdmissionOf row then return persisted
    else throw (immutableConflict row.snapshot.snapshotHash)
  | none => throw (immutableConflict row.snapshot.snapshotHash)

/-- `putImmutable`; `timestamptz` is a date as the table gives it back, none where it is no date. -/
def putImmutable (timestamptz : String → Option String) (row : AdmittedExecutionPlanSnapshot ρ) :
    EStateM PlanAdmissionError (List (SnapshotRow ρ)) (AdmittedExecutionPlanSnapshot ρ) := do
  let row ← check (parseAdmitted host row)
  transaction do
    match ← getByHash host row.snapshot.snapshotHash with
    | some existing => answer row (some existing)
    | none =>
      check (host.assertExecutionPlanPublishable row.snapshot.content)
      match timestamptz row.admittedAt with
      | none => throw (.database "invalid input syntax for type timestamp with time zone")
      | some admittedAt =>
        insertSnapshot
          { snapshotHash := row.snapshot.snapshotHash
            workflowId := row.workflowId
            workspaceId := row.workspaceId
            admittedAt
            payload := row.snapshot }
        answer row (← getByHash host row.snapshot.snapshotHash)

end PostgresExecutionPlanSnapshotStore

open PostgresExecutionPlanSnapshotStore in
/-- **The table keeps what it is handed.** -/
def postgresExecutionPlanSnapshotStore (host : PlanHost ρ) (timestamptz : String → Option String) :
    ExecutionPlanSnapshotStore host (List (SnapshotRow ρ)) where
  putImmutable := putImmutable host timestamptz
  getByHash := getByHash host
  getByWorkflowId := getByWorkflowId host
  written row s := by
    simp only [putImmutable, wp_bind, wp_check, wp_transaction]
    refine ⟨fun parsed hparse => ?_, fun _ _ => trivial⟩
    obtain ⟨hparse, -⟩ := parseAdmitted_eq_ok.mp hparse
    have hanswer : ∀ found s, Wp (answer parsed found) s
        (fun stored _ => host.parseSnapshot row.snapshot = some stored.snapshot)
          fun _ _ => True := by
      intro found s
      cases found with
      | none => exact (wp_throw _).mpr trivial
      | some persisted =>
        rw [answer, wp_ite]
        refine ⟨fun hsame => ?_, fun _ => (wp_throw _).mpr trivial⟩
        rw [wp_pure, (of_decide_eq_true hsame).2.2, hparse]
    refine Wp.of_forall (fun found s => ?_) fun _ _ => trivial
    cases found with
    | some existing => exact hanswer (some existing) s
    | none =>
      simp only [wp_bind, wp_check]
      refine ⟨fun _ _ => ?_, fun _ _ => trivial⟩
      split
      · exact (wp_throw _).mpr trivial
      · simp only [wp_bind]
        refine Wp.of_forall (fun _ s => ?_) fun _ _ => trivial
        exact Wp.of_forall hanswer fun _ _ => trivial

end MeiyeAgent
