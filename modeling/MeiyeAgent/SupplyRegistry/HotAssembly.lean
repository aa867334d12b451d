import Mathlib.Logic.Function.Basic
import MeiyeAgent.SupplyRegistry.CapabilityRevisions

/-!
# SupplyRegistry/HotAssembly — bindings assembled at request time

An instance keeps bindings it has assembled under joined texts, and forgets them when it applies
another revision or moves a channel; the revisions are shared between the instances.  In Postgres a
new instance, with nothing kept, is filled from the rows at each request.
-/

namespace MeiyeAgent

open Effect

structure AdapterBindingRecord where
  deploymentId : String
  adapterKey : String
  adapterBindingRevision : Option String := none
  executionChannelId : Option String := none
  adapterConfig : Option String := none
  deriving DecidableEq

structure AdapterLookup where
  capabilityRevisionId : String
  adapterBindingRevision : Option String := none
  deriving DecidableEq

/-- `AdapterBindingDirectory.get`. -/
abbrev AdapterBindingDirectory := String → AdapterLookup → Option AdapterBindingRecord

/-- `CredentialSecretBrokerPort.assembleForRequest`, as it answers one call. -/
abbrev SecretBroker := AssembleCredentialRequest → Except SecretBrokerError AssembledCredential

structure AssembledCapabilityBinding where
  role : AssemblyRole
  capabilityRevisionId : String
  deploymentId : String
  entry : RuntimeCapabilityEntry
  adapterKey : String
  adapterBindingRevision : Option String := none
  adapterConfig : Option String := none
  credential : Option AssembledCredential := none
  channelLifecycle : ChannelLifecycleState
  resolvedFromHistory : Bool
  deriving DecidableEq

structure ApplyCapabilityResult where
  previousRevisionId : Option String
  appliedRevisionId : String
  diff : CapabilityRevisionDiff
  cacheInvalidated : Bool
  deriving DecidableEq

/-- A `HotAssemblyError`, thrown by an assembly. -/
def liftHot {α : Type} : Except HotAssemblyError α → Except AssemblyError α
  | .ok a => .ok a
  | .error e => .error (.hot e)

/-! ## The binding of an entry -/

section Binding

variable (adapters : Option AdapterBindingDirectory)

/-- What the directory says of an entry of a revision. -/
def adapterOf (resolved : ResolvedEntry) : Option AdapterBindingRecord :=
  adapters.bind fun get => get resolved.entry.deploymentId
    ⟨resolved.revision.revisionId, truthy resolved.entry.adapterBindingRevision⟩

def adapterKeyOf (resolved : ResolvedEntry) : String :=
  ((adapterOf adapters resolved).map (·.adapterKey)).getD resolved.entry.adapterKey

def adapterBindingRevisionOf (resolved : ResolvedEntry) : Option String :=
  ((adapterOf adapters resolved).bind (·.adapterBindingRevision)).or
    resolved.entry.adapterBindingRevision

def AssemblyRole.text : AssemblyRole → String
  | .primary => "primary"
  | .structuring => "structuring"

/-- The text a binding is kept under. -/
def cacheKey (request : AssembleCapabilityRequest) (resolved : ResolvedEntry)
    (cacheGeneration : Nat) : String :=
  String.intercalate "::" [resolved.revision.revisionId, resolved.entry.deploymentId,
    (request.role.getD .primary).text, request.frozenCredentialVersion.getD "",
    adapterKeyOf adapters resolved, (adapterBindingRevisionOf adapters resolved).getD "",
    Nat.repr cacheGeneration]

/-- The credential of an entry that has an account. -/
def credentialOf (secrets : Option SecretBroker) (request : AssembleCapabilityRequest)
    (entry : RuntimeCapabilityEntry) : Except AssemblyError (Option AssembledCredential) :=
  match truthy entry.credentialAccountId with
  | none => pure none
  | some account =>
    match secrets with
    | none => throw (.hot ⟨.CREDENTIAL_REQUIRED, "Deployment " ++ entry.deploymentId ++
        " requires CredentialSecretBrokerPort for account " ++ account ++ "."⟩)
    | some broker =>
      match broker ⟨account, truthy request.frozenCredentialVersion, request.requiredScope⟩ with
      | .ok credential => pure (some credential)
      | .error e => throw (.broker e)

/-- The binding of an entry. -/
def bindingOf (role : AssemblyRole) (resolved : ResolvedEntry)
    (credential : Option AssembledCredential) (channelLifecycle : ChannelLifecycleState) :
    AssembledCapabilityBinding where
  role := role
  capabilityRevisionId := resolved.revision.revisionId
  deploymentId := resolved.entry.deploymentId
  entry := { resolved.entry with
    adapterKey := adapterKeyOf adapters resolved
    adapterBindingRevision := adapterBindingRevisionOf adapters resolved }
  adapterKey := adapterKeyOf adapters resolved
  adapterBindingRevision := truthy (adapterBindingRevisionOf adapters resolved)
  adapterConfig := ((adapterOf adapters resolved).bind (·.adapterConfig)).or
    resolved.entry.adapterConfig
  credential := credential
  channelLifecycle := channelLifecycle
  resolvedFromHistory := resolved.resolvedFromHistory

end Binding

/-! ## The instances in memory -/

/-- What an instance of `CapabilityHotAssemblyRegistry` keeps. -/
structure RegistryInstance where
  cacheGeneration : Nat := 0
  assemblyCache : OrderedMap String AssembledCapabilityBinding := .empty
  channels : OrderedMap String MemoryChannel := .empty

namespace RegistryInstance

def channel (s : RegistryInstance) (channelId : String) : MemoryChannel :=
  (s.channels.get? channelId).getD {}

def invalidateAssemblyCache (s : RegistryInstance) : RegistryInstance :=
  { s with assemblyCache := .empty, cacheGeneration := s.cacheGeneration + 1 }

end RegistryInstance

/-- An instance, and the revisions it shares. -/
abbrev Registry := EStateM AssemblyError (RevisionStore × RegistryInstance)

/-- The calls that make an instance forget its bindings. -/
def ChannelCall.invalidates : ChannelCall → Bool
  | .acquireChannelSubmission _ | .releaseChannelSubmission _ => false
  | .isolateChannel _ _ | .startChannelDrain _ _ | .completeChannelDrain _ _ _
  | .restoreChannel _ _ _ => true

namespace CapabilityHotAssemblyRegistry

def applyCapabilityRevision (revision : RuntimeCapabilityRevision) :
    Registry ApplyCapabilityResult := do
  let validated ← check (liftHot (projectCapabilityRevision revision))
  let (store, s) ← get
  let cacheInvalidated := shouldInvalidateAssemblyCache store.head validated
  set (store.set validated, if cacheInvalidated then s.invalidateAssemblyCache else s)
  return {
    previousRevisionId := store.head.map (·.revisionId)
    appliedRevisionId := validated.revisionId
    diff := diffCapabilityRevisions store.head validated
    cacheInvalidated }

/-- A call on a channel of the instance. -/
def onChannel (channelId clock : String) (call : ChannelCall) : Registry ChannelAnswer := do
  let (store, s) ← get
  match perform channelId clock call (s.channel channelId) with
  | .error e _ => throw (.hot e)
  | .ok answer channel =>
    let moved := { s with channels := s.channels.set channelId channel }
    set (store, if call.invalidates then moved.invalidateAssemblyCache else moved)
    return answer

section Assembly

variable (adapters : Option AdapterBindingDirectory)

/-- The record of the channel of an entry. -/
def lifecycleOf (s : RegistryInstance) (entry : RuntimeCapabilityEntry) : ChannelLifecycleState :=
  let channelId := entry.executionChannelId.getD entry.deploymentId
  getChannelLifecycle channelId (s.channel channelId)

/-- The binding kept for a request, of an entry with no account. -/
def cachedBinding (s : RegistryInstance) (request : AssembleCapabilityRequest)
    (resolved : ResolvedEntry) : Option AssembledCapabilityBinding :=
  if (truthy resolved.entry.credentialAccountId).isSome then none
  else s.assemblyCache.get? (cacheKey adapters request resolved s.cacheGeneration)

/-- The instance with a binding kept, where it may be. -/
def keepBinding (s : RegistryInstance) (request : AssembleCapabilityRequest)
    (resolved : ResolvedEntry) (binding : AssembledCapabilityBinding) : RegistryInstance :=
  let key := cacheKey adapters request resolved s.cacheGeneration
  if (decideChannelAdmission binding.channelLifecycle .new_submit).admitted ∧
      truthy resolved.entry.credentialAccountId = none then
    { s with assemblyCache := s.assemblyCache.set key binding }
  else s

def assembleForRequest (request : AssembleCapabilityRequest) (secrets : Option SecretBroker) :
    Registry AssembledCapabilityBinding := do
  let (store, s) ← get
  let resolved ← check (liftHot (resolveEntryForRequest store request))
  let channelLifecycle := lifecycleOf s resolved.entry
  match cachedBinding adapters s request resolved with
  | some binding => return { binding with channelLifecycle }
  | none =>
    let credential ← check (credentialOf secrets request resolved.entry)
    let binding := bindingOf adapters (request.role.getD .primary) resolved credential
      channelLifecycle
    set (store, keepBinding adapters s request resolved binding)
    return binding

end Assembly

end CapabilityHotAssemblyRegistry

/-! ## The rows in Postgres -/

/-- The revisions and the head of a workspace, and its channels. -/
structure CapabilityRows where
  revisions : OrderedMap String RuntimeCapabilityRevision := .empty
  head : Option String := none
  channels : OrderedMap String PostgresChannel := .empty
  deriving DecidableEq

def concurrencyConflict (message : String) : Thrown := .domain .IDEMPOTENCY_CONFLICT message

namespace PostgresSupplyControlPlaneRepository

abbrev Rows := EStateM Thrown CapabilityRows

/-- A head that is expected to be absent may be the revision itself. -/
def headMoves (head : Option String) (revisionId : String) : Option String → Bool
  | none => head.all (· = revisionId)
  | some expected => head = some expected

def setHead (revisionId : String) (expectedHeadRevisionId : Option String) : Rows Unit := do
  let rows ← get
  if headMoves rows.head revisionId expectedHeadRevisionId then
    set { rows with head := some revisionId }
  else throw (concurrencyConflict ("Supply control-plane head changed before revision " ++
    revisionId ++ " could be applied."))

def setEffectiveCapabilityRevision (revision : RuntimeCapabilityRevision)
    (expectedHeadRevisionId : Option String) : Rows Unit := transaction do
  let rows ← get
  if (rows.revisions.get? revision.revisionId).all (· = revision) then
    set { rows with revisions := rows.revisions.set revision.revisionId revision }
    setHead revision.revisionId expectedHeadRevisionId
  else throw (concurrencyConflict ("Effective capability revision " ++ revision.revisionId ++
    " already exists with different content."))

def getCapabilityRevision (rows : CapabilityRows) (revisionId : String) :
    Option RuntimeCapabilityRevision := rows.revisions.get? revisionId

def getEffectiveCapabilityRevision (rows : CapabilityRows) : Option RuntimeCapabilityRevision :=
  rows.head.bind (getCapabilityRevision rows)

def listCapabilityRevisions (rows : CapabilityRows) : List RuntimeCapabilityRevision :=
  rows.revisions.values.insertionSort fun a b =>
    a.number < b.number ∨ a.number = b.number ∧ TextLe a.revisionId b.revisionId

end PostgresSupplyControlPlaneRepository

open PostgresSupplyControlPlaneRepository

/-- The revision an id asks for; no id asks for the head. -/
def askedRevision (rows : CapabilityRows) (id : Option String) :
    Option RuntimeCapabilityRevision :=
  match truthy id with
  | some id => getCapabilityRevision rows id
  | none => getEffectiveCapabilityRevision rows

/-- The binding of an entry, where no other binding revision is asked for. -/
def adapterRecordOf (entry : RuntimeCapabilityEntry) (asked : Option String) :
    Option AdapterBindingRecord :=
  if asked.all fun asked => entry.adapterBindingRevision = some asked then
    some {
      deploymentId := entry.deploymentId
      adapterKey := entry.adapterKey
      adapterBindingRevision := truthy entry.adapterBindingRevision
      executionChannelId := truthy entry.executionChannelId
      adapterConfig := entry.adapterConfig }
  else none

/-- `PostgresAdapterBindingDirectory.get`. -/
def rowsDirectory (rows : CapabilityRows) : AdapterBindingDirectory := fun deploymentId lookup =>
  (askedRevision rows (some lookup.capabilityRevisionId)).bind fun revision =>
    (revision.entryOf deploymentId).bind fun entry =>
      adapterRecordOf entry (truthy lookup.adapterBindingRevision)

namespace PostgresCapabilityHotAssemblyPort

abbrev Port := EStateM AssemblyError CapabilityRows

/-- A call of the repository. -/
def ofRows {α : Type} (x : Rows α) : Port α := fun rows =>
  match x rows with
  | .ok a rows => .ok a rows
  | .error e rows => .error (.thrown e) rows

def applyCapabilityRevision (revision : RuntimeCapabilityRevision) :
    Port ApplyCapabilityResult := do
  let validated ← check (liftHot (projectCapabilityRevision revision))
  let previous := getEffectiveCapabilityRevision (← get)
  ofRows (setEffectiveCapabilityRevision validated (previous.map (·.revisionId)))
  return {
    previousRevisionId := previous.map (·.revisionId)
    appliedRevisionId := validated.revisionId
    diff := diffCapabilityRevisions previous validated
    cacheInvalidated := shouldInvalidateAssemblyCache previous validated }

/-- A call on a channel of the rows. -/
def onChannel (channelId clock : String) (call : ChannelCall) : Port ChannelAnswer := do
  let rows ← get
  match perform channelId clock call ((rows.channels.get? channelId).getD {}) with
  | .error e _ => throw (.hot e)
  | .ok answer channel =>
    set { rows with channels := rows.channels.set channelId channel }
    return answer

/-- The revisions of the registry that is built at each request. -/
def runtimeStore (rows : CapabilityRows) : RevisionStore :=
  let store := (listCapabilityRevisions rows).foldl RevisionStore.set {}
  match getEffectiveCapabilityRevision rows with
  | some head => store.set head
  | none => store

/-- The channel a request is about. -/
def requestChannel (rows : CapabilityRows) (request : AssembleCapabilityRequest) : String :=
  let entry := (askedRevision rows request.frozenCapabilityRevisionId).bind
    (·.entryOf request.deploymentId)
  (entry.bind (·.executionChannelId)).getD request.deploymentId

/-- A channel that is shut is shut in the registry that is built, too. -/
def shutChannel (channelId clock : String) (lifecycle : ChannelLifecycleState) : MemoryChannel :=
  let options : ChannelCallOptions :=
    { now := some lifecycle.startedAt, inFlightCount := some lifecycle.inFlightCount }
  match lifecycle.mode with
  | .accepting => {}
  | .isolated => final (CapabilityHotAssemblyRegistry.isolateChannel channelId clock
      lifecycle.reason options) {}
  | .draining => final (CapabilityHotAssemblyRegistry.startChannelDrain channelId clock
      lifecycle.reason options) {}

/-- The registry that is built for a request. -/
def runtimeRegistry (rows : CapabilityRows) (clock : String)
    (request : AssembleCapabilityRequest) : RevisionStore × RegistryInstance :=
  let channelId := requestChannel rows request
  let lifecycle := getChannelLifecycle channelId ((rows.channels.get? channelId).getD {})
  (runtimeStore rows,
    { channels := OrderedMap.empty.set channelId (shutChannel channelId clock lifecycle) })

/-- `adapters` is the directory the port is given, where it is given one. -/
def assembleForRequest (adapters : Option AdapterBindingDirectory) (clock : String)
    (request : AssembleCapabilityRequest) (secrets : Option SecretBroker) :
    Port AssembledCapabilityBinding := do
  let rows ← get
  check (result (CapabilityHotAssemblyRegistry.assembleForRequest
    (some (adapters.getD (rowsDirectory rows))) request secrets)
      (runtimeRegistry rows clock request))

end PostgresCapabilityHotAssemblyPort

end MeiyeAgent
