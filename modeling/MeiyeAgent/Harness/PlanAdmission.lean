import MeiyeAgent.AgentSession.Confirmations
import MeiyeAgent.Foundation.Schemas
import MeiyeAgent.Harness.ExecutionPlans

/-!
# Harness/PlanAdmission — frozen plans, and their one-shot admission

A plan is frozen with the hash of its content.  Its snapshot joins the id of a decision to it, and
an admission writes the snapshot once.

* `buildExecutionPlanSnapshot` — the snapshot of a frozen content, its hash checked again.
* `evaluateExecutionPlanStaleness` — what has drifted since the freeze.
* `admitExecutionPlanSnapshot` — the admission a workflow calls: write once, verify what is stored.
* `admission_self` — **what is admitted is the snapshot that was handed in**.
-/

namespace MeiyeAgent

open Effect Reading

/-! ## Snapshots -/

inductive ExecutionPlanApprovalBasis
  | merchant_confirmed
  | policy_exempt_copy
  deriving DecidableEq

/-- The frozen content; `rest` is what admission only carries. -/
structure ExecutionPlanFrozenContent (ρ : Type) where
  planRevision : Int
  quoteRef : AgentRevisionRef
  rightsRevisionRefs : List String
  factRevisionRefs : List String
  authorityRevisionRefs : Option (List String) := none
  approvalBasis : ExecutionPlanApprovalBasis
  rest : ρ
  deriving DecidableEq

structure PendingExecutionPlanSnapshot (ρ : Type) where
  content : ExecutionPlanFrozenContent ρ
  snapshotHash : String
  deriving DecidableEq

structure ExecutionPlanSnapshot (ρ : Type) where
  content : ExecutionPlanFrozenContent ρ
  snapshotHash : String
  confirmationDecisionRef : Option String := none
  deriving DecidableEq

/-- How the carried fields are read, and the plan among them. -/
structure PlanReader (ρ : Type) where
  read : ρ → Option ρ
  settles : Reading.Settles read
  executionPlan : ρ → CompiledExecutionPlan

inductive ExecutionPlanAdmissionErrorCode
  | SNAPSHOT_HASH_MISMATCH
  | SNAPSHOT_STALE
  | STALE_CONFIRMATION_REJECTED
  | IDEMPOTENCY_CONFLICT
  | DECISION_REF_REQUIRED
  | DECISION_REF_FORBIDDEN
  | CONTEXT_FENCE_MISMATCH
  | RIGHTS_FENCE_MISMATCH
  | PLAN_CAPABILITY_UNSUPPORTED
  | NOT_FOUND
  | INVALID_STATE
  deriving DecidableEq

inductive PlanAdmissionError
  | schema
  | refused (code : ExecutionPlanAdmissionErrorCode) (message : String)
  | database (message : String)
  deriving DecidableEq

/-! ### Reading -/

def AgentRevisionRef.parse (ref : AgentRevisionRef) : Option AgentRevisionRef :=
  if ref.trimmed.valid then some ref.trimmed else none

theorem AgentRevisionRef.settles_parse : Reading.Settles AgentRevisionRef.parse := by
  intro ref parsed h
  rw [parse] at h
  split at h
  · next hvalid =>
    obtain rfl := Option.some.inj h
    rw [parse, trimmed_trimmed, if_pos hvalid]
  · exact nomatch h

/-- `z.array(identifierSchema).max(most)`. -/
def parseRefs (most : Nat) (refs : List String) : Option (List String) :=
  if refs.length ≤ most then refs.mapM parseTrimmed else none

theorem settles_parseRefs (most : Nat) : Reading.Settles (parseRefs most) := by
  intro refs parsed h
  rw [parseRefs] at h
  split at h
  · next hmost =>
    rw [parseRefs, if_pos ((mapM_eq_some.mp h).length_eq ▸ hmost)]
    exact settles_parseTrimmed.list _ _ h
  · exact nomatch h

variable {ρ : Type}

/-- Whether the basis of a snapshot goes with its decision. -/
def ExecutionPlanSnapshot.consistent (snapshot : ExecutionPlanSnapshot ρ) : Bool :=
  match snapshot.content.approvalBasis with
  | .merchant_confirmed => (truthy snapshot.confirmationDecisionRef).isSome
  | .policy_exempt_copy => (truthy snapshot.confirmationDecisionRef).isNone

namespace PlanReader

variable (reader : PlanReader ρ)

def parseContent (content : ExecutionPlanFrozenContent ρ) :
    Option (ExecutionPlanFrozenContent ρ) :=
  if 0 < content.planRevision ∧ content.planRevision ≤ maxSafeInteger then do
    let quoteRef ← content.quoteRef.parse
    let rightsRevisionRefs ← parseRefs 100 content.rightsRevisionRefs
    let factRevisionRefs ← parseRefs 200 content.factRevisionRefs
    let authorityRevisionRefs ← content.authorityRevisionRefs.mapM (parseRefs 200)
    let rest ← reader.read content.rest
    return { content with quoteRef, rightsRevisionRefs, factRevisionRefs, authorityRevisionRefs,
                          rest }
  else none

/-- `executionPlanSnapshotSchema.parse`. -/
def parseSnapshot (snapshot : ExecutionPlanSnapshot ρ) : Option (ExecutionPlanSnapshot ρ) := do
  let content ← reader.parseContent snapshot.content
  let snapshotHash ← parseTrimmedMost 128 snapshot.snapshotHash
  let confirmationDecisionRef ← snapshot.confirmationDecisionRef.mapM parseTrimmed
  let parsed : ExecutionPlanSnapshot ρ := { content, snapshotHash, confirmationDecisionRef }
  if parsed.consistent then some parsed else none

end PlanReader

theorem settles_parseContent (reader : PlanReader ρ) : Reading.Settles reader.parseContent := by
  intro content parsed h
  rw [PlanReader.parseContent] at h
  split at h
  · next hrevision =>
    simp only [Option.bind_eq_bind, Option.bind_eq_some_iff, Option.pure_def,
      Option.some.injEq] at h
    obtain ⟨quoteRef, hquote, rights, hrights, facts, hfacts, authority, hauthority, rest, hrest,
      rfl⟩ := h
    simp only [PlanReader.parseContent, if_pos hrevision,
      AgentRevisionRef.settles_parse _ _ hquote, settles_parseRefs _ _ _ hrights,
      settles_parseRefs _ _ _ hfacts, (settles_parseRefs 200).option _ _ hauthority,
      reader.settles _ _ hrest, Option.bind_eq_bind, Option.pure_def, Option.bind_some]
  · exact nomatch h

/-- **A snapshot that has been read is read as itself.** -/
theorem settles_parseSnapshot (reader : PlanReader ρ) : Reading.Settles reader.parseSnapshot := by
  intro snapshot parsed h
  simp only [PlanReader.parseSnapshot, Option.bind_eq_bind, Option.bind_eq_some_iff] at h
  obtain ⟨content, hcontent, hash, hhash, ref, href, h⟩ := h
  split at h
  · next hconsistent =>
    obtain rfl := Option.some.inj h
    simp only [PlanReader.parseSnapshot, settles_parseContent reader _ _ hcontent,
      settles_trimmedMost _ _ _ hhash, settles_parseTrimmed.option _ _ href, hconsistent, if_true,
      Option.bind_eq_bind, Option.bind_some]
  · exact nomatch h

/-! ### Building -/

/-- **The host of frozen plans**: their digest, a text a schema reads as itself, tells a content
from what the schema makes of it. -/
structure PlanHost (ρ : Type) extends PlanReader ρ where
  computeExecutionPlanSnapshotHash : ExecutionPlanFrozenContent ρ → String
  digest_read : ∀ content, parseTrimmedMost 128 (computeExecutionPlanSnapshotHash content) =
    some (computeExecutionPlanSnapshotHash content)
  digest_inj : ∀ content parsed, toPlanReader.parseContent content = some parsed →
    computeExecutionPlanSnapshotHash parsed = computeExecutionPlanSnapshotHash content →
    parsed = content

namespace PlanHost

variable (host : PlanHost ρ)

def buildExecutionPlanSnapshot (content : ExecutionPlanFrozenContent ρ)
    (snapshotHash confirmationDecisionRef : Option String) :
    Except PlanAdmissionError (ExecutionPlanSnapshot ρ) :=
  let expected := host.computeExecutionPlanSnapshotHash content
  let given := snapshotHash.getD expected
  if given ≠ expected then
    .error (.refused .SNAPSHOT_HASH_MISMATCH
      ("snapshotHash mismatch: provided " ++ given ++ " !== computed " ++ expected ++ "."))
  else
    match host.parseSnapshot ⟨content, given, truthy confirmationDecisionRef⟩ with
    | some snapshot => .ok snapshot
    | none => .error .schema

/-- `assertExecutionPlanPublishable`. -/
def assertExecutionPlanPublishable (content : ExecutionPlanFrozenContent ρ) :
    Except PlanAdmissionError Unit :=
  match currentExecutionPlanCapabilityViolation (host.executionPlan content.rest) with
  | none => .ok ()
  | some violation => .error (.refused .PLAN_CAPABILITY_UNSUPPORTED
      ("CompiledExecutionPlan cannot be admitted: " ++ violation ++
        ". Current execution is serial with no retry or cache policies."))

end PlanHost

/-! ## Staleness -/

structure SnapshotLiveFacts where
  quoteRevision : Option RevisionValue := none
  quoteMissing : Option Bool := none
  rightsRevisionRefs : Option (List String) := none
  factRevisionRefs : Option (List String) := none
  authorityRevisionRefs : Option (List String) := none
  rightsRevoked : Option Bool := none
  contextDrifted : Option Bool := none
  deriving DecidableEq

/-- The field of a difference. -/
inductive SnapshotStaleField
  | quote
  | quoteMissing
  | rightsRevisionRefs
  | factRevisionRefs
  | authorityRevisionRefs
  | rightsRevoked
  | contextDrifted
  deriving DecidableEq

def SnapshotStaleField.text : SnapshotStaleField → String
  | .quote => "quote"
  | .quoteMissing => "quoteMissing"
  | .rightsRevisionRefs => "rightsRevisionRefs"
  | .factRevisionRefs => "factRevisionRefs"
  | .authorityRevisionRefs => "authorityRevisionRefs"
  | .rightsRevoked => "rightsRevoked"
  | .contextDrifted => "contextDrifted"

/-- `sameIdSet`. -/
def sameIdSet (left : List String) (right : Option (List String)) : Bool :=
  match right with
  | none => true
  | some right => left.length = right.length ∧ sortTexts left = sortTexts right

/-- What has drifted, in the order the difference is written: nothing where the plan is current. -/
def evaluateExecutionPlanStaleness (snapshot : ExecutionPlanSnapshot ρ) (live : SnapshotLiveFacts) :
    List SnapshotStaleField :=
  let drifted (field : SnapshotStaleField) (stale : Bool) := if stale then [field] else []
  drifted .quote (live.quoteRevision.any (· ≠ snapshot.content.quoteRef.revision)) ++
    drifted .quoteMissing (live.quoteMissing = some true) ++
    drifted .rightsRevisionRefs
      (!sameIdSet snapshot.content.rightsRevisionRefs live.rightsRevisionRefs) ++
    drifted .factRevisionRefs
      (!sameIdSet snapshot.content.factRevisionRefs live.factRevisionRefs) ++
    drifted .authorityRevisionRefs
      (!sameIdSet (snapshot.content.authorityRevisionRefs.getD []) live.authorityRevisionRefs) ++
    drifted .rightsRevoked (live.rightsRevoked = some true) ++
    drifted .contextDrifted (live.contextDrifted = some true)

/-- The fields of a difference, as a message lists them. -/
def staleFields (stale : List SnapshotStaleField) : String :=
  String.intercalate "," (stale.map (·.text))

/-! ## Admission -/

structure AdmittedExecutionPlanSnapshot (ρ : Type) where
  snapshot : ExecutionPlanSnapshot ρ
  workflowId : String
  workspaceId : String
  admittedAt : String
  deriving DecidableEq

/-- **A store of admitted plans**: what it keeps of a row is the row's snapshot as the schema reads
it. -/
structure ExecutionPlanSnapshotStore (host : PlanHost ρ) (σ : Type) where
  putImmutable : AdmittedExecutionPlanSnapshot ρ →
    EStateM PlanAdmissionError σ (AdmittedExecutionPlanSnapshot ρ)
  getByHash : String → EStateM PlanAdmissionError σ (Option (AdmittedExecutionPlanSnapshot ρ))
  getByWorkflowId : String → EStateM PlanAdmissionError σ (Option (AdmittedExecutionPlanSnapshot ρ))
  written : ∀ row s, Wp (putImmutable row) s
    (fun stored _ => host.parseSnapshot row.snapshot = some stored.snapshot) fun _ _ => True

/-- The row that stands for a plan, and whether it was there before. -/
structure AdmitExecutionPlanResult (ρ : Type) where
  admitted : AdmittedExecutionPlanSnapshot ρ
  replayed : Bool
  deriving DecidableEq

structure AdmitExecutionPlanInput (ρ : Type) where
  workflowId : String
  workspaceId : String
  snapshot : ExecutionPlanSnapshot ρ
  live : Option SnapshotLiveFacts := none
  deriving DecidableEq

namespace ExecutionPlanAdmissionService

variable {σ : Type} [DecidableEq ρ] {host : PlanHost ρ} (store : ExecutionPlanSnapshotStore host σ)

/-- The decision a basis asks for. -/
def checkDecision (snapshot : ExecutionPlanSnapshot ρ) : Except PlanAdmissionError Unit :=
  match snapshot.content.approvalBasis, truthy snapshot.confirmationDecisionRef with
  | .merchant_confirmed, none => .error (.refused .DECISION_REF_REQUIRED
      "merchant_confirmed admission requires confirmationDecisionRef.")
  | .policy_exempt_copy, some _ => .error (.refused .DECISION_REF_FORBIDDEN
      "policy_exempt_copy admission must not carry confirmationDecisionRef.")
  | _, _ => .ok ()

/-- What is refused at admission. -/
def checkLive (snapshot : ExecutionPlanSnapshot ρ) (live : Option SnapshotLiveFacts) :
    Except PlanAdmissionError Unit :=
  match (live.map (evaluateExecutionPlanStaleness snapshot)).getD [] with
  | [] => .ok ()
  | stale => .error (.refused .STALE_CONFIRMATION_REJECTED
      ("Stale confirmation rejected at admission (" ++ staleFields stale ++
        "); re-confirm required."))

/-- `admit`, of a snapshot that has been read; the clock is read into `now`. -/
def admitContent (input : AdmitExecutionPlanInput ρ) (now : String) :
    EStateM PlanAdmissionError σ (AdmitExecutionPlanResult ρ) := do
  check (checkDecision input.snapshot)
  let snapshot ← check (host.buildExecutionPlanSnapshot input.snapshot.content
    (some input.snapshot.snapshotHash) input.snapshot.confirmationDecisionRef)
  match ← store.getByWorkflowId input.workflowId with
  | some row =>
    if row.snapshot = snapshot ∧ row.workspaceId = input.workspaceId then
      return { admitted := row, replayed := true }
    else throw (.refused .IDEMPOTENCY_CONFLICT ("Workflow " ++ input.workflowId ++
      " already admitted a different ExecutionPlanSnapshot."))
  | none =>
    check (host.assertExecutionPlanPublishable input.snapshot.content)
    check (checkLive snapshot input.live)
    let priorByHash ← store.getByHash snapshot.snapshotHash
    let written ← store.putImmutable ⟨snapshot, input.workflowId, input.workspaceId, now⟩
    let replayed := priorByHash.any fun prior =>
      prior.workflowId = input.workflowId ∧ prior.snapshot = snapshot
    return { admitted := written, replayed }

def admitSnapshot (input : AdmitExecutionPlanInput ρ) (now : String) :
    EStateM PlanAdmissionError σ (AdmitExecutionPlanResult ρ) :=
  match host.parseSnapshot input.snapshot with
  | none => throw .schema
  | some snapshot => admitContent store { input with snapshot } now

/-- What a workflow refuses of a stored plan. -/
def fence (snapshot : ExecutionPlanSnapshot ρ) (live : Option SnapshotLiveFacts) :
    Except PlanAdmissionError Unit :=
  match live, (live.map (evaluateExecutionPlanStaleness snapshot)).getD [] with
  | some live, field :: stale =>
    if live.rightsRevoked = some true then .error (.refused .RIGHTS_FENCE_MISMATCH
      "DBOS rights fence failed: frozen rights are revoked or missing.")
    else if live.contextDrifted = some true then .error (.refused .CONTEXT_FENCE_MISMATCH
      "DBOS context fence failed: material context head drifted after freeze.")
    else .error (.refused .SNAPSHOT_STALE
      ("DBOS verification failed: snapshot is stale (" ++ staleFields (field :: stale) ++ ")."))
  | _, _ => .ok ()

/-- `verifyExecutionPlanSnapshotForDbos`. -/
def verifyExecutionPlanSnapshotForDbos (host : PlanHost ρ) (snapshot : ExecutionPlanSnapshot ρ)
    (live : Option SnapshotLiveFacts) : Except PlanAdmissionError Unit :=
  match host.parseSnapshot snapshot with
  | none => .error .schema
  | some parsed =>
    let expected := host.computeExecutionPlanSnapshotHash parsed.content
    if parsed.snapshotHash ≠ expected then
      .error (.refused .SNAPSHOT_HASH_MISMATCH ("DBOS verification failed: snapshotHash " ++
        parsed.snapshotHash ++ " !== recomputed " ++ expected ++ "."))
    else fence parsed live

def verifyAdmittedForDbos (workflowId snapshotHash : String) (live : Option SnapshotLiveFacts) :
    EStateM PlanAdmissionError σ Unit := do
  match ← (if snapshotHash ≠ "" then store.getByHash snapshotHash
    else store.getByWorkflowId workflowId) with
  | none => throw (.refused .NOT_FOUND
      ("No admitted ExecutionPlanSnapshot for workflow " ++ workflowId ++ "."))
  | some row =>
    if row.workflowId ≠ workflowId then
      throw (.refused .INVALID_STATE ("Snapshot " ++ row.snapshot.snapshotHash ++
        " is bound to workflow " ++ row.workflowId ++ ", not " ++ workflowId ++ "."))
    check (verifyExecutionPlanSnapshotForDbos host row.snapshot live)

/-- The admission of `withExecutionConfirmationStagePort`. -/
def admitExecutionPlanSnapshot (input : AdmitExecutionPlanInput ρ) (now : String) :
    EStateM PlanAdmissionError σ (ExecutionPlanSnapshot ρ) := do
  let result ← admitSnapshot store input now
  verifyAdmittedForDbos store input.workflowId result.admitted.snapshot.snapshotHash input.live
  return result.admitted.snapshot

end ExecutionPlanAdmissionService

/-! ### What is admitted -/

section Admitted

variable {host : PlanHost ρ} {content : ExecutionPlanFrozenContent ρ} {hash : String}
  {ref : Option String} {snapshot : ExecutionPlanSnapshot ρ}

theorem parseSnapshot_eq_some {parsed : ExecutionPlanSnapshot ρ} :
    host.parseSnapshot snapshot = some parsed ↔
      host.parseContent snapshot.content = some parsed.content ∧
        parseTrimmedMost 128 snapshot.snapshotHash = some parsed.snapshotHash ∧
        snapshot.confirmationDecisionRef.mapM parseTrimmed = some parsed.confirmationDecisionRef ∧
        parsed.consistent = true := by
  simp only [PlanReader.parseSnapshot, Option.bind_eq_bind, Option.bind_eq_some_iff]
  constructor
  · rintro ⟨content, hcontent, hash, hhash, ref, href, h⟩
    split at h
    · next hconsistent =>
      obtain rfl := Option.some.inj h
      exact ⟨hcontent, hhash, href, hconsistent⟩
    · exact nomatch h
  · rintro ⟨hcontent, hhash, href, hconsistent⟩
    exact ⟨_, hcontent, _, hhash, _, href, if_pos hconsistent⟩

/-- **A snapshot is built of the frozen content and its own hash.** -/
theorem build_eq_ok : host.buildExecutionPlanSnapshot content (some hash) ref = .ok snapshot ↔
    hash = host.computeExecutionPlanSnapshotHash content ∧
      host.parseSnapshot ⟨content, hash, truthy ref⟩ = some snapshot := by
  simp only [PlanHost.buildExecutionPlanSnapshot, Option.getD_some]
  split
  · next hne => exact iff_of_false nofun fun h => hne h.1
  · next heq =>
    cases hparse : host.parseSnapshot ⟨content, hash, truthy ref⟩ with
    | none => exact iff_of_false nofun fun h => nomatch h.2
    | some parsed =>
      rw [Except.ok.injEq, Option.some.injEq]
      exact ⟨fun h => ⟨not_not.mp heq, h⟩, And.right⟩

theorem truthy_of_self (h : host.parseSnapshot snapshot = some snapshot) :
    truthy snapshot.confirmationDecisionRef = snapshot.confirmationDecisionRef := by
  obtain ⟨-, -, href, -⟩ := parseSnapshot_eq_some.mp h
  cases hdecision : snapshot.confirmationDecisionRef with
  | none => rfl
  | some id =>
    rw [hdecision] at href
    obtain ⟨id', hid, hsome⟩ := Option.map_eq_some_iff.mp
      (href : (parseTrimmed id).map some = some (some id))
    obtain rfl := Option.some.inj hsome
    exact Option.filter_some_pos (by simp [(parseTrimmed_eq_self.mp hid).2])

end Admitted

namespace ExecutionPlanAdmissionService

variable {σ : Type} [DecidableEq ρ] {host : PlanHost ρ} (store : ExecutionPlanSnapshotStore host σ)
  (input : AdmitExecutionPlanInput ρ) (now : String) (s : σ)

/-- **What is admitted is the snapshot that was handed in**, and its hash is that of its content. -/
theorem admission_self (hself : host.parseSnapshot input.snapshot = some input.snapshot) :
    Wp (admitExecutionPlanSnapshot store input now) s
      (fun answer _ => answer = input.snapshot ∧
        input.snapshot.snapshotHash =
          host.computeExecutionPlanSnapshotHash input.snapshot.content) fun _ _ => True := by
  rw [admitExecutionPlanSnapshot, wp_bind]
  have hadmit : Wp (admitSnapshot store input now) s
      (fun result _ => result.admitted.snapshot = input.snapshot ∧ input.snapshot.snapshotHash =
        host.computeExecutionPlanSnapshotHash input.snapshot.content) fun _ _ => True := by
    rw [admitSnapshot, hself]
    simp only [admitContent, wp_bind, wp_check]
    refine ⟨fun _ _ => ⟨fun snapshot hbuild => ?_, fun _ _ => trivial⟩, fun _ _ => trivial⟩
    obtain ⟨hhash, hparse⟩ := build_eq_ok.mp hbuild
    rw [truthy_of_self hself, hself, Option.some.injEq] at hparse
    obtain rfl := hparse
    refine Wp.of_forall (fun row t => ?_) fun _ _ => trivial
    cases row with
    | none =>
      simp only [wp_bind, wp_check]
      refine ⟨fun _ _ => ⟨fun _ _ => ?_, fun _ _ => trivial⟩, fun _ _ => trivial⟩
      refine Wp.of_forall (fun _ t => ?_) fun _ _ => trivial
      refine (store.written _ t).mono (fun stored _ hwritten => ?_) fun _ _ _ => trivial
      rw [wp_pure]
      exact ⟨(Option.some.inj (hself.symm.trans hwritten)).symm, hhash⟩
    | some row =>
      simp only [wp_ite, wp_pure, wp_throw]
      exact ⟨fun hrow => ⟨hrow.1, hhash⟩, fun _ => trivial⟩
  refine hadmit.mono (fun row t hrow => ?_) fun _ _ _ => trivial
  rw [wp_bind]
  exact Wp.of_forall (fun _ _ => (wp_pure _).mpr hrow) fun _ _ => trivial

end ExecutionPlanAdmissionService

end MeiyeAgent
