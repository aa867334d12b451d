import MeiyeAgent.SupplyRegistry.HotAssembly

/-!
# SupplyRegistry/BootSeeding — a process that boots seeds the capability head

A process reads the head, decides what to write, writes it, and where the write is refused reads the
head again.  Each of the three is one call of the repository, and other processes run between them.
-/

namespace MeiyeAgent

open Effect PostgresSupplyControlPlaneRepository

/-! ## What a boot revision makes of a head -/

def processBoot : String := "process_boot_from_runtime_capabilities"

def credentialReconciliation : String := "reconcile_postgres_credential_account_bindings"

def bootMark : String := "boot-capability:"

def bindingsMark : String := ":credential-bindings:"

/-- The epoch that is written, or the one an older revision is taken to have. -/
def bootCatalogEpoch (revision : RuntimeCapabilityRevision) : Option Int :=
  revision.bootCatalogEpoch.or
    (if revision.reason = some processBoot ∨ revision.reason = some credentialReconciliation ∧
        Text.startsWith revision.revisionId bootMark then some 0
      else none)

/-- One epoch is below another; an absent one is below none. -/
def epochBelow : Option Int → Option Int → Bool
  | some one, some other => one < other
  | _, _ => false

/-- A boot of a later epoch puts its catalog in the place of the head. -/
def refreshes (current boot : RuntimeCapabilityRevision) : Bool :=
  boot.reason = some processBoot && epochBelow (bootCatalogEpoch current) (bootCatalogEpoch boot) &&
    current.revisionId ≠ boot.revisionId

def refreshed (current boot : RuntimeCapabilityRevision) : RuntimeCapabilityRevision :=
  { boot with number := current.number + 1, previousRevisionId := some current.revisionId }

/-- Two entries are bound to one version of one account. -/
def boundAlike (entry desired : RuntimeCapabilityEntry) : Bool :=
  entry.credentialAccountId = desired.credentialAccountId ∧
    entry.credentialVersion = desired.credentialVersion

/-- The entry a deployment is to be bound as, where it is to have an account. -/
def desiredBy (entries : List RuntimeCapabilityEntry) (entry : RuntimeCapabilityEntry) :
    Option RuntimeCapabilityEntry :=
  ((entriesById entries).get? entry.deploymentId).filter fun desired =>
    (truthy desired.credentialAccountId).isSome

/-- **An entry is bound as a list has it.** -/
def boundBy (entries : List RuntimeCapabilityEntry) (entry : RuntimeCapabilityEntry) : Bool :=
  (desiredBy entries entry).all (boundAlike entry)

/-- A version that is not given leaves the one there. -/
def rebind (boot : RuntimeCapabilityRevision) (entry : RuntimeCapabilityEntry) :
    RuntimeCapabilityEntry :=
  if boundBy boot.entries entry then entry
  else
    let desired := desiredBy boot.entries entry
    { entry with
      credentialAccountId := desired.bind (·.credentialAccountId)
      credentialVersion := (truthy (desired.bind (·.credentialVersion))).or
        entry.credentialVersion }

/-- What the fingerprint is taken of. -/
structure CredentialRow where
  deploymentId : String
  credentialAccountId : Option String
  credentialVersion : Option String
  deriving DecidableEq

section Seeding

variable (host : Host) (fingerprint : List CredentialRow → String)

def credentialRows (entries : List RuntimeCapabilityEntry) : List CredentialRow :=
  sortBy (fun left right => some (host.localeCompare left.deploymentId right.deploymentId))
    (entries.map fun entry =>
      ⟨entry.deploymentId, entry.credentialAccountId, entry.credentialVersion⟩)

/-- The head with its bindings put right; `clock` is the text of the instant. -/
def reconciled (current boot : RuntimeCapabilityRevision) (clock : String) :
    RuntimeCapabilityRevision :=
  let entries := current.entries.map (rebind boot)
  { current with
    revisionId := current.revisionId ++ bindingsMark ++ fingerprint (credentialRows host entries)
    number := current.number + 1
    entries
    previousRevisionId := some current.revisionId
    publishedAt := clock
    reason := some credentialReconciliation }

/-! ## A process -/

/-- What a refused write is forgiven for. -/
inductive Recovery
  | seeded
  | refreshed (revisionId : String)
  | reconciled (entries : List RuntimeCapabilityEntry)
  deriving DecidableEq

def Recovery.forgives (winner : Option RuntimeCapabilityRevision) : Recovery → Bool
  | .seeded => winner.isSome
  | .refreshed revisionId => winner.any (·.revisionId = revisionId)
  | .reconciled entries => winner.any fun winner => winner.entries.all (boundBy entries)

/-- Where a process is between its calls. -/
inductive SeedState
  | start
  | writing (next : RuntimeCapabilityRevision) (expected : Option String) (recovery : Recovery)
  | recovering (recovery : Recovery) (error : AssemblyError)
  | done
  | failed (error : AssemblyError)
  deriving DecidableEq

/-- What a process does about the head it has read. -/
def decideSeed (boot : RuntimeCapabilityRevision) (clock : String) :
    Option RuntimeCapabilityRevision → SeedState
  | none =>
    match projectCapabilityRevision boot with
    | .ok validated => .writing validated none .seeded
    | .error e => .recovering .seeded (.hot e)
  | some current =>
    if refreshes current boot then
      .writing (refreshed current boot) (some current.revisionId) (.refreshed boot.revisionId)
    else if current.entries.all (boundBy boot.entries) then .done
    else
      let next := reconciled host fingerprint current boot clock
      .writing next (some current.revisionId) (.reconciled next.entries)

/-- One call of a process. -/
def SeedState.next (boot : RuntimeCapabilityRevision) (clock : String) (rows : CapabilityRows) :
    SeedState → CapabilityRows × SeedState
  | .start => (rows, decideSeed host fingerprint boot clock (getEffectiveCapabilityRevision rows))
  | .writing next expected recovery =>
    match setEffectiveCapabilityRevision next expected rows with
    | .ok _ rows => (rows, .done)
    | .error e rows => (rows, .recovering recovery (.thrown e))
  | .recovering recovery error =>
    if recovery.forgives (getEffectiveCapabilityRevision rows) then (rows, .done)
    else (rows, .failed error)
  | .done => (rows, .done)
  | .failed error => (rows, .failed error)

/-- **`seedIfEmpty`**, with no other process running. -/
def seedIfEmpty (boot : RuntimeCapabilityRevision) (clock : String) (rows : CapabilityRows) :
    CapabilityRows × SeedState :=
  let read := SeedState.next host fingerprint boot clock rows .start
  let written := SeedState.next host fingerprint boot clock read.1 read.2
  SeedState.next host fingerprint boot clock written.1 written.2

/-- The rows, and where each process is. -/
structure Booting where
  rows : CapabilityRows
  processes : Nat → SeedState := fun _ => .start

/-- A process makes its next call at a clock. -/
def Booting.next (boots : Nat → RuntimeCapabilityRevision) (h : Booting) (step : Nat × String) :
    Booting :=
  let moved := (h.processes step.1).next host fingerprint (boots step.1) step.2 h.rows
  { rows := moved.1, processes := Function.update h.processes step.1 moved.2 }

end Seeding

end MeiyeAgent
