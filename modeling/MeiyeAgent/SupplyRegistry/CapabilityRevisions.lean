import MeiyeAgent.Machinery.OrderedMap
import MeiyeAgent.SupplyRegistry.ChannelLifecycle
import MeiyeAgent.SupplyRegistry.SecretBroker

/-!
# SupplyRegistry/CapabilityRevisions — the revisions of what a runtime can do

A revision is a list of entries, one a deployment, under an id.  A request resolves to an entry of
the head, or of the revision it was frozen to.  An adapter configuration and a capability profile
are known by their JSON texts.
-/

namespace MeiyeAgent

open Effect

structure RuntimeCapabilityEntry where
  deploymentId : String
  catalogModelId : String
  apiFamily : String
  channel : String
  region : String
  executionChannelId : Option String := none
  providerModel : Option String := none
  endpointRevision : Option String := none
  lifecycleRevision : Option String := none
  credentialVersion : Option String := none
  credentialAccountId : Option String := none
  adapterKey : String
  adapterBindingRevision : Option String := none
  adapterConfig : Option String := none
  capabilityProfile : Option String := none
  deriving DecidableEq

structure RuntimeCapabilityRevision where
  revisionId : String
  number : Int
  entries : List RuntimeCapabilityEntry
  publishedAt : String
  previousRevisionId : Option String := none
  bootCatalogEpoch : Option Int := none
  reason : Option String := none
  actorId : Option String := none
  correlationId : Option String := none
  deriving DecidableEq

/-- What an assembly may throw. -/
inductive AssemblyError
  | hot (error : HotAssemblyError)
  | broker (error : SecretBrokerError)
  | thrown (error : Thrown)
  deriving DecidableEq

/-! ## Validation -/

/-- The first deployment of two entries. -/
def duplicateDeployment : List String → List String → Option String
  | _, [] => none
  | seen, id :: ids => if id ∈ seen then some id else duplicateDeployment (id :: seen) ids

def projectCapabilityRevision (input : RuntimeCapabilityRevision) :
    Except HotAssemblyError RuntimeCapabilityRevision :=
  if input.revisionId = "" then
    throw ⟨.INVALID_REVISION, "Capability revision requires a non-empty revisionId."⟩
  else if input.number < 1 then
    throw ⟨.INVALID_REVISION, "Capability revision number must be a positive integer."⟩
  else match duplicateDeployment [] (input.entries.map (·.deploymentId)) with
    | some id => throw ⟨.INVALID_REVISION, "Duplicate capability entry for deployment " ++ id ++ "."⟩
    | none => pure
      { input with
        previousRevisionId := truthy input.previousRevisionId
        reason := truthy input.reason
        actorId := truthy input.actorId
        correlationId := truthy input.correlationId }

/-! ## Differences -/

/-- The entries under their deployments; the last of two stays. -/
def entriesById (entries : List RuntimeCapabilityEntry) :
    OrderedMap String RuntimeCapabilityEntry :=
  OrderedMap.empty.setAll (entries.map fun entry => (entry.deploymentId, entry))

structure VersionChange where
  deploymentId : String
  before : Option String
  after : Option String
  deriving DecidableEq

structure CapabilityRevisionDiff where
  previousRevisionId : Option String
  nextRevisionId : String
  addedDeploymentIds : List String
  removedDeploymentIds : List String
  changedDeploymentIds : List String
  credentialVersionChanges : List VersionChange
  adapterKeyChanges : List VersionChange
  deriving DecidableEq

def diffCapabilityRevisions (previous : Option RuntimeCapabilityRevision)
    (next : RuntimeCapabilityRevision) : CapabilityRevisionDiff :=
  let prevMap := entriesById ((previous.map (·.entries)).getD [])
  let nextMap := entriesById next.entries
  let changed := nextMap.values.filter fun entry =>
    (prevMap.get? entry.deploymentId).any (· ≠ entry)
  let changes (value : RuntimeCapabilityEntry → Option String) : List VersionChange :=
    changed.filterMap fun entry =>
      (prevMap.get? entry.deploymentId).bind fun prev =>
        if value prev ≠ value entry then some ⟨entry.deploymentId, value prev, value entry⟩
        else none
  { previousRevisionId := previous.map (·.revisionId)
    nextRevisionId := next.revisionId
    addedDeploymentIds := (nextMap.values.filter fun entry =>
      (prevMap.get? entry.deploymentId).isNone).map (·.deploymentId)
    removedDeploymentIds := (prevMap.values.filter fun entry =>
      (nextMap.get? entry.deploymentId).isNone).map (·.deploymentId)
    changedDeploymentIds := changed.map (·.deploymentId)
    credentialVersionChanges := changes (·.credentialVersion)
    adapterKeyChanges := changes (some ·.adapterKey) }

def shouldInvalidateAssemblyCache (previous : Option RuntimeCapabilityRevision)
    (next : RuntimeCapabilityRevision) : Bool :=
  match previous with
  | none => true
  | some head =>
    head.revisionId ≠ next.revisionId ||
      let diff := diffCapabilityRevisions previous next
      diff.addedDeploymentIds ≠ [] || diff.removedDeploymentIds ≠ [] ||
        diff.changedDeploymentIds ≠ []

/-! ## The store in memory -/

/-- `MemoryEffectiveCapabilityRevisionStore`: the head, and the revisions by their ids. -/
structure RevisionStore where
  head : Option RuntimeCapabilityRevision := none
  history : OrderedMap String RuntimeCapabilityRevision := .empty
  deriving DecidableEq

namespace RevisionStore

/-- A revision of a used id takes the place of the one there. -/
def set (store : RevisionStore) (revision : RuntimeCapabilityRevision) : RevisionStore where
  head := some revision
  history := store.history.set revision.revisionId revision

/-- The revisions, by their numbers. -/
def listHistory (store : RevisionStore) : List RuntimeCapabilityRevision :=
  store.history.values.insertionSort fun a b => a.number ≤ b.number

end RevisionStore

/-! ## Resolution -/

inductive AssemblyRole
  | primary
  | structuring
  deriving DecidableEq

structure AssembleCapabilityRequest where
  deploymentId : String
  role : Option AssemblyRole := none
  frozenCapabilityRevisionId : Option String := none
  frozenCredentialVersion : Option String := none
  requiredScope : CredentialScope
  deriving DecidableEq

/-- The entry of a deployment. -/
def RuntimeCapabilityRevision.entryOf (revision : RuntimeCapabilityRevision)
    (deploymentId : String) : Option RuntimeCapabilityEntry :=
  revision.entries.find? (·.deploymentId = deploymentId)

/-- What a request is resolved to. -/
structure ResolvedEntry where
  revision : RuntimeCapabilityRevision
  entry : RuntimeCapabilityEntry
  resolvedFromHistory : Bool
  deriving DecidableEq

def resolveFrozenCapabilityEntry (history : List RuntimeCapabilityRevision)
    (frozenRevisionId deploymentId : String) :
    Option (RuntimeCapabilityRevision × RuntimeCapabilityEntry) := do
  let revision ← history.find? (·.revisionId = frozenRevisionId)
  let entry ← revision.entryOf deploymentId
  return (revision, entry)

/-- The entry of the head. -/
def resolveAtHead (head : RuntimeCapabilityRevision) (deploymentId : String) :
    Except HotAssemblyError ResolvedEntry :=
  match head.entryOf deploymentId with
  | none => throw ⟨.ENTRY_NOT_FOUND, "Deployment " ++ deploymentId ++
      " is not in effective capability revision " ++ head.revisionId ++ "."⟩
  | some entry => pure ⟨head, entry, false⟩

/-- The entry of a revision of the log. -/
def resolveInHistory (history : List RuntimeCapabilityRevision)
    (frozenRevisionId deploymentId : String) : Except HotAssemblyError ResolvedEntry :=
  match resolveFrozenCapabilityEntry history frozenRevisionId deploymentId with
  | none => throw ⟨.CAPABILITY_REVISION_NOT_FOUND, "Frozen capability revision " ++
      frozenRevisionId ++ " for deployment " ++ deploymentId ++
      " is not recorded; refusing silent upgrade."⟩
  | some (revision, entry) => pure ⟨revision, entry, true⟩

def resolveEntryForRequest (store : RevisionStore) (request : AssembleCapabilityRequest) :
    Except HotAssemblyError ResolvedEntry :=
  match store.head with
  | none => throw ⟨.CAPABILITY_REVISION_NOT_FOUND,
      "No effective capability revision is published."⟩
  | some head =>
    match truthy request.frozenCapabilityRevisionId with
    | none => resolveAtHead head request.deploymentId
    | some frozen =>
      if frozen = head.revisionId then resolveAtHead head request.deploymentId
      else resolveInHistory store.listHistory frozen request.deploymentId

end MeiyeAgent
