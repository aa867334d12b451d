import MeiyeAgent.AgentSession.PlanCompiler
import MeiyeAgent.Harness.PlanAdmission

/-!
# AgentSession/MarketingPlanStore — plan revisions, appended in memory

A plan is a list of revisions; a revision is appended behind its predecessor and never changed.

* `PlanRevision.parse` — `marketingPlanRevisionSchema`, which reads what it has read as itself.
* `StoreSound` — what every run of appends leaves: revisions in sequence, each as it was parsed.
-/

namespace MeiyeAgent

/-! ## Revisions -/

structure PlanBoundRevisions where
  intentRevision : Nat
  contextBundleId : String
  contextRevision : String
  recipeRevisionIds : List String
  catalogRevisionId : String
  modelRevisionIds : List String
  sourceRevisionIds : List String
  rightsRevisionIds : List String
  harnessReleaseId : String
  deriving DecidableEq

/-- A `MarketingPlanRevision`, with all it carries; scope, intent, memory context, goal,
deliverables and expression as their schemas have read them. -/
structure PlanRevision where
  planId : String
  revision : Nat
  threadId : String
  goalIds : List String
  scope : Json
  intent : Json
  memoryContext : Option Json
  goal : Json
  deliverables : Json
  expression : Json
  factUsages : List Json
  authorityRefs : List String
  assetUsages : List Json
  rightsSummary : Json
  complianceSummary : Json
  capabilitySummary : Json
  quoteRef : AgentRevisionRef
  boundRevisions : PlanBoundRevisions
  contentHash : String
  expiresAt : String
  createdAt : String

/-! ### Schemas -/

def PlanBoundRevisions.parse (bound : PlanBoundRevisions) : Option PlanBoundRevisions :=
  if bound.intentRevision ≤ maxSafeInteger then do
    let contextBundleId ← parseTrimmed bound.contextBundleId
    let contextRevision ← parseTrimmed bound.contextRevision
    let recipeRevisionIds ← parseRefs 50 bound.recipeRevisionIds
    let catalogRevisionId ← parseTrimmed bound.catalogRevisionId
    let modelRevisionIds ← parseRefs 50 bound.modelRevisionIds
    let sourceRevisionIds ← parseRefs 50 bound.sourceRevisionIds
    let rightsRevisionIds ← parseRefs 50 bound.rightsRevisionIds
    let harnessReleaseId ← parseTrimmed bound.harnessReleaseId
    return { bound with contextBundleId, contextRevision, recipeRevisionIds, catalogRevisionId,
                        modelRevisionIds, sourceRevisionIds, rightsRevisionIds, harnessReleaseId }
  else none

/-- The bounds a revision keeps that are not those of a text. -/
def PlanRevision.Bounded (isDatetime : String → Bool) (revision : PlanRevision) : Prop :=
  (0 < revision.revision ∧ revision.revision ≤ maxSafeInteger) ∧
    revision.factUsages.length ≤ 200 ∧ revision.assetUsages.length ≤ 200 ∧
    isDatetime revision.expiresAt = true ∧ isDatetime revision.createdAt = true

instance (isDatetime : String → Bool) (revision : PlanRevision) :
    Decidable (revision.Bounded isDatetime) := by
  unfold PlanRevision.Bounded
  infer_instance

/-- `marketingPlanRevisionSchema.parse`; `isDatetime` is `z.iso.datetime`. -/
def PlanRevision.parse (isDatetime : String → Bool) (revision : PlanRevision) :
    Option PlanRevision :=
  if revision.Bounded isDatetime then do
    let planId ← parseTrimmed revision.planId
    let threadId ← parseTrimmed revision.threadId
    let goalIds ← parseRefs 50 revision.goalIds
    let authorityRefs ← parseRefs 200 revision.authorityRefs
    let quoteRef ← revision.quoteRef.parse
    let boundRevisions ← revision.boundRevisions.parse
    let contentHash ← parseTrimmedMost 128 revision.contentHash
    return { revision with planId, threadId, goalIds, authorityRefs, quoteRef, boundRevisions,
                           contentHash }
  else none

theorem PlanBoundRevisions.settles_parse : Reading.Settles PlanBoundRevisions.parse := by
  intro bound parsed h
  rw [parse] at h
  split at h
  · next hrevision =>
    simp only [Option.bind_eq_bind, Option.bind_eq_some_iff, Option.pure_def,
      Option.some.injEq] at h
    obtain ⟨bundle, hbundle, context, hcontext, recipes, hrecipes, catalog, hcatalog, models,
      hmodels, sources, hsources, rights, hrights, release, hrelease, rfl⟩ := h
    simp only [parse, if_pos hrevision, parseTrimmed_idem hbundle, parseTrimmed_idem hcontext,
      parseTrimmed_idem hcatalog, parseTrimmed_idem hrelease, settles_parseRefs _ _ _ hrecipes,
      settles_parseRefs _ _ _ hmodels, settles_parseRefs _ _ _ hsources,
      settles_parseRefs _ _ _ hrights, Option.bind_eq_bind, Option.pure_def, Option.bind_some]
  · exact nomatch h

/-- What a parse leaves as it is. -/
theorem PlanRevision.parse_eq_some {isDatetime : String → Bool} {revision parsed : PlanRevision}
    (h : revision.parse isDatetime = some parsed) : revision.Bounded isDatetime ∧
      ∃ planId threadId goalIds authorityRefs quoteRef boundRevisions contentHash,
        parseTrimmed revision.planId = some planId ∧
        parseTrimmed revision.threadId = some threadId ∧
        parseRefs 50 revision.goalIds = some goalIds ∧
        parseRefs 200 revision.authorityRefs = some authorityRefs ∧
        revision.quoteRef.parse = some quoteRef ∧
        revision.boundRevisions.parse = some boundRevisions ∧
        parseTrimmedMost 128 revision.contentHash = some contentHash ∧
        { revision with planId, threadId, goalIds, authorityRefs, quoteRef, boundRevisions,
                        contentHash } = parsed := by
  rw [parse] at h
  split at h
  · next hbounded =>
    simp only [Option.bind_eq_bind, Option.bind_eq_some_iff, Option.pure_def,
      Option.some.injEq] at h
    obtain ⟨planId, hplan, threadId, hthread, goalIds, hgoals, refs, hrefs, quoteRef, hquote, bound,
      hbound, hash, hhash, heq⟩ := h
    exact ⟨hbounded, planId, threadId, goalIds, refs, quoteRef, bound, hash, hplan, hthread, hgoals,
      hrefs, hquote, hbound, hhash, heq⟩
  · exact nomatch h

/-- **A revision that was read is read as itself.** -/
theorem PlanRevision.settles_parse (isDatetime : String → Bool) :
    Reading.Settles (PlanRevision.parse isDatetime) := by
  intro revision parsed h
  obtain ⟨hbounded, planId, threadId, goalIds, refs, quoteRef, bound, hash, hplan, hthread, hgoals,
    hrefs, hquote, hbound, hhash, rfl⟩ := parse_eq_some h
  have hagain : PlanRevision.Bounded isDatetime { revision with
      planId := planId, threadId := threadId, goalIds := goalIds, authorityRefs := refs,
      quoteRef := quoteRef, boundRevisions := bound, contentHash := hash } := hbounded
  simp only [parse, if_pos hagain, parseTrimmed_idem hplan, parseTrimmed_idem hthread,
    settles_parseRefs _ _ _ hgoals, settles_parseRefs _ _ _ hrefs,
    AgentRevisionRef.settles_parse _ _ hquote, PlanBoundRevisions.settles_parse _ _ hbound,
    settles_trimmedMost _ _ _ hhash, Option.bind_eq_bind, Option.pure_def, Option.bind_some]

/-! ## The store -/

/-- `MarketingPlanCompileArtifact`, and a stored row: a package allocation is passed on as it is. -/
structure PlanArtifact where
  revision : PlanRevision
  executionPlan : CompiledExecutionPlan
  packageBilling : Option Json := none

/-- What the store raises. -/
inductive PlanStoreError
  | schema
  | sequence (message : String)

/-- `MemoryMarketingPlanStore`. -/
abbrev MemoryMarketingPlanStore := OrderedMap String (List PlanArtifact)

def assertAppendOnlyRevisionSequence (planId : String) (nextRevision : Nat) :
    Option Nat → Except PlanStoreError Unit
  | none =>
    if nextRevision ≠ 1 then
      throw (.sequence ("First revision for " ++ planId ++ " must be 1, got " ++
        toString nextRevision ++ "."))
    else pure ()
  | some previousRevision =>
    if nextRevision ≠ previousRevision + 1 then
      throw (.sequence ("Plan " ++ planId ++ " next revision must be " ++
        toString (previousRevision + 1) ++ ", got " ++ toString nextRevision ++ "."))
    else pure ()

namespace MemoryMarketingPlanStore

variable (isDatetime : String → Bool)

def rowsOf (store : MemoryMarketingPlanStore) (planId : String) : List PlanArtifact :=
  (store.get? planId).getD []

/-- The row an append puts behind the others. -/
def appendedRow (input : PlanArtifact) : Option PlanArtifact := do
  let revision ← input.revision.parse isDatetime
  let executionPlan ← (parseCompiledPlan input.executionPlan).toOption
  return { input with revision, executionPlan }

def append (store : MemoryMarketingPlanStore) (input : PlanArtifact) :
    Except PlanStoreError (PlanArtifact × MemoryMarketingPlanStore) := do
  let row ← match appendedRow isDatetime input with
    | some row => pure row
    | none => throw .schema
  let existing := rowsOf store row.revision.planId
  assertAppendOnlyRevisionSequence row.revision.planId row.revision.revision
    (existing.getLast?.map (·.revision.revision))
  return (row, store.set row.revision.planId (existing ++ [row]))

def getRevision (store : MemoryMarketingPlanStore) (planId : String) (revision : Nat) :
    Option PlanArtifact :=
  (rowsOf store planId).find? (·.revision.revision = revision)

def getLatest (store : MemoryMarketingPlanStore) (planId : String) : Option PlanArtifact :=
  (rowsOf store planId).getLast?

/-- What an append leaves of the store: nothing where it throws. -/
def appendTo (store : MemoryMarketingPlanStore) (input : PlanArtifact) :
    MemoryMarketingPlanStore :=
  match append isDatetime store input with
  | .ok (_, store') => store'
  | .error _ => store

/-- The store a run of appends leaves. -/
def stored (inputs : List PlanArtifact) : MemoryMarketingPlanStore :=
  Effect.runAll (appendTo isDatetime) inputs OrderedMap.empty

end MemoryMarketingPlanStore

/-! ## What the store keeps -/

theorem assertAppendOnlyRevisionSequence_eq_ok {planId : String} {next : Nat}
    {previous : Option Nat} : assertAppendOnlyRevisionSequence planId next previous = .ok () ↔
      next = previous.getD 0 + 1 := by
  cases previous with
  | none =>
    rw [assertAppendOnlyRevisionSequence]
    split
    · next h => exact iff_of_false nofun h
    · next h => exact iff_of_true rfl (not_not.mp h)
  | some previous =>
    rw [assertAppendOnlyRevisionSequence]
    split
    · next h => exact iff_of_false nofun h
    · next h => exact iff_of_true rfl (not_not.mp h)

/-- Revisions in sequence, from the first. -/
def Sequential (rows : List PlanArtifact) : Prop :=
  rows.map (·.revision.revision) = List.range' 1 rows.length

variable {rows : List PlanArtifact}

theorem Sequential.latest (h : Sequential rows) :
    (rows.getLast?.map (·.revision.revision)).getD 0 = rows.length := by
  rw [← List.getLast?_map, h, List.getLast?_range']
  split
  · next hnil => rw [hnil]; rfl
  · rw [Option.getD_some]
    omega

theorem Sequential.append {row : PlanArtifact} (h : Sequential rows)
    (hnext : row.revision.revision = rows.length + 1) : Sequential (rows ++ [row]) := by
  rw [Sequential, List.map_append, h, List.length_append, List.length_singleton,
    List.range'_concat, List.map_singleton, hnext, Nat.one_mul, Nat.add_comm 1]

/-- A revision stands in one row. -/
theorem Sequential.unique (h : Sequential rows) {row row' : PlanArtifact} (hrow : row ∈ rows)
    (hrow' : row' ∈ rows) (heq : row.revision.revision = row'.revision.revision) : row = row' := by
  have hnodup : (rows.map (·.revision.revision)).Nodup := by
    rw [h]
    exact List.nodup_range'
  exact List.inj_on_of_nodup_map hnodup hrow hrow' heq

/-- **The rows of a plan**: in sequence, each of the plan and as it was parsed. -/
structure RowsSound (isDatetime : String → Bool) (planId : String) (rows : List PlanArtifact) :
    Prop where
  sequential : Sequential rows
  parsed : ∀ row ∈ rows, row.revision.planId = planId ∧
    MemoryMarketingPlanStore.appendedRow isDatetime row = some row

namespace MemoryMarketingPlanStore

variable {isDatetime : String → Bool} {store store' : MemoryMarketingPlanStore}
  {input row : PlanArtifact} {planId : String}

theorem parseCompiledPlan_eq {plan parsed : CompiledExecutionPlan}
    (h : (parseCompiledPlan plan).toOption = some parsed) : parsed = plan := by
  rw [parseCompiledPlan] at h
  split at h
  · exact nomatch h
  · split at h
    · exact nomatch h
    · exact (Option.some.inj h).symm

/-- A row that was parsed is parsed to itself. -/
theorem settles_appendedRow : Reading.Settles (appendedRow isDatetime) := by
  intro input row h
  simp only [appendedRow, Option.bind_eq_bind, Option.bind_eq_some_iff, Option.pure_def,
    Option.some.injEq] at h
  obtain ⟨revision, hrevision, plan, hplan, rfl⟩ := h
  have hsame := parseCompiledPlan_eq hplan
  subst hsame
  simp [appendedRow, PlanRevision.settles_parse _ _ _ hrevision, hplan]

/-- **An append puts the parsed row behind the latest revision**, where it is the next one. -/
theorem append_eq_ok : append isDatetime store input = .ok (row, store') ↔
    appendedRow isDatetime input = some row ∧
      row.revision.revision = ((rowsOf store row.revision.planId).getLast?.map
        (·.revision.revision)).getD 0 + 1 ∧
      store' = store.set row.revision.planId (rowsOf store row.revision.planId ++ [row]) := by
  rw [append]
  cases appendedRow isDatetime input with
  | none => exact iff_of_false nofun fun h => nomatch h.1
  | some parsed =>
    simp only [pure_bind, Effect.bind_eq_ok, Effect.pure_eq_ok, Prod.mk.injEq, Option.some.injEq]
    constructor
    · rintro ⟨_, hnext, rfl, rfl⟩
      exact ⟨rfl, assertAppendOnlyRevisionSequence_eq_ok.mp hnext, rfl⟩
    · rintro ⟨rfl, hnext, rfl⟩
      exact ⟨(), assertAppendOnlyRevisionSequence_eq_ok.mpr hnext, rfl, rfl⟩

theorem rowsOf_set (store : MemoryMarketingPlanStore) (planId other : String)
    (rows : List PlanArtifact) :
    rowsOf (store.set planId rows) other = if other = planId then rows else rowsOf store other := by
  rw [rowsOf, OrderedMap.get?_set]
  split <;> rfl

/-- **An append keeps the rows of every plan sound.** -/
theorem rowsSound_append (hsound : ∀ planId, RowsSound isDatetime planId (rowsOf store planId))
    (h : append isDatetime store input = .ok (row, store')) (planId : String) :
    RowsSound isDatetime planId (rowsOf store' planId) := by
  obtain ⟨hrow, hnext, rfl⟩ := append_eq_ok.mp h
  rw [rowsOf_set]
  split
  · next hplan =>
    subst hplan
    have hbefore := hsound row.revision.planId
    rw [hbefore.sequential.latest] at hnext
    refine ⟨hbefore.sequential.append hnext, fun other hother => ?_⟩
    rcases List.mem_append.mp hother with hother | hother
    · exact hbefore.parsed other hother
    · rw [List.mem_singleton.mp hother]
      exact ⟨rfl, settles_appendedRow _ _ hrow⟩
  · exact hsound planId

/-- **The rows of every plan are sound**, after any run of appends. -/
theorem rowsSound_stored (inputs : List PlanArtifact) (planId : String) :
    RowsSound isDatetime planId (rowsOf (stored isDatetime inputs) planId) := by
  refine Effect.runAll_invariant
    (fun store => ∀ planId, RowsSound isDatetime planId (rowsOf store planId)) ?_ inputs ?_ planId
  · intro store input hsound planId
    rw [appendTo]
    split
    · next row store' happend => exact rowsSound_append hsound happend planId
    · exact hsound planId
  · exact fun planId => ⟨rfl, fun row hrow => absurd hrow List.not_mem_nil⟩

end MemoryMarketingPlanStore

end MeiyeAgent
