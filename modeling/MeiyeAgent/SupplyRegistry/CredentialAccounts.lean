import MeiyeAgent.Foundation.Schemas

/-!
# SupplyRegistry/CredentialAccounts — the life of a credential account

An account is pending, active or retired, and has one version at its head; the versions it has had
stay in its history.  A transition is pure: it returns the next account, or an error.
-/

namespace MeiyeAgent

open Effect

/-- Whose credential it is. -/
inductive CredentialScope
  | platform
  | workspace_byok
  deriving DecidableEq

/-- The life of an account. -/
inductive CredentialAccountLifecycle
  | pending
  | active
  | retired
  deriving DecidableEq

def CredentialAccountLifecycle.text : CredentialAccountLifecycle → String
  | .pending => "pending"
  | .active => "active"
  | .retired => "retired"

/-- Whether an active account is being drained. -/
inductive CredentialDrainSubstate
  | draining
  | none
  deriving DecidableEq

/-- Where a credential came from. -/
inductive CredentialSource
  | registry
  | env_fallback
  | migration
  deriving DecidableEq

/-- What an account connects to. -/
inductive IntegrationProvider
  | douyin
  | feishu
  | model
  deriving DecidableEq

/-- The mask is the same of every version. -/
structure CredentialVersionSnapshot where
  version : String
  secretReference : String
  secretVersion : Int
  createdAt : String
  source : CredentialSource
  mask : String := "••••••••"
  deriving DecidableEq

/-- How a connection test ended. -/
inductive CredentialTestStatus
  | passed
  | unauthorized
  | network_failed
  | unknown
  | not_wired
  deriving DecidableEq

/-- A test, with its instant and its evidence. -/
structure CredentialTestEvidence where
  status : CredentialTestStatus
  testedAt : String
  evidenceRef : String
  errorCode : Option String := none
  deriving DecidableEq

/-- An account: its head version, its history and its last test. -/
structure CredentialAccount where
  id : String
  label : String
  providerProfileId : String
  projectRegion : Option String := none
  type : String
  scope : CredentialScope
  secretReference : String
  version : String
  status : CredentialAccountLifecycle
  drainSubstate : CredentialDrainSubstate
  source : CredentialSource
  verifiedAt : Option String := none
  expiresAt : Option String := none
  publicQuotaHint : Option String := none
  lastTestEvidenceRef : Option String := none
  lastTest : Option CredentialTestEvidence := none
  connectionId : String
  workspaceId : String
  provider : IntegrationProvider
  credentialId : String
  secretVersion : Int
  versionHistory : List CredentialVersionSnapshot
  createdAt : String
  updatedAt : String
  deriving DecidableEq

/-! ## A new account -/

/-- What an account is made of. -/
structure CreateCredentialAccountInput where
  id : String
  label : String
  providerProfileId : String
  type : String
  scope : CredentialScope
  secretReference : String
  version : String
  secretVersion : Int
  credentialId : String
  connectionId : String
  workspaceId : String
  provider : IntegrationProvider
  source : Option CredentialSource := none
  status : Option CredentialAccountLifecycle := none
  drainSubstate : Option CredentialDrainSubstate := none
  projectRegion : Option String := none
  publicQuotaHint : Option String := none
  expiresAt : Option String := none
  now : Option String := none

/-- `clock` is the text of the instant of the call. -/
def createCredentialAccount (input : CreateCredentialAccountInput) (clock : String) :
    CredentialAccount :=
  let now := input.now.getD clock
  let source := input.source.getD .registry
  { id := input.id
    label := input.label
    providerProfileId := input.providerProfileId
    projectRegion := truthy input.projectRegion
    type := input.type
    scope := input.scope
    secretReference := input.secretReference
    version := input.version
    status := input.status.getD .pending
    drainSubstate := input.drainSubstate.getD .none
    source
    expiresAt := truthy input.expiresAt
    publicQuotaHint := truthy input.publicQuotaHint
    connectionId := input.connectionId
    workspaceId := input.workspaceId
    provider := input.provider
    credentialId := input.credentialId
    secretVersion := input.secretVersion
    versionHistory := [{
      version := input.version
      secretReference := input.secretReference
      secretVersion := input.secretVersion
      createdAt := now
      source }]
    createdAt := now
    updatedAt := now }

/-! ## Transitions -/

/-- Why a command is refused. -/
inductive CredentialLifecycleErrorCode
  | INVALID_TRANSITION
  | ACTIVATION_GATE_FAILED
  | ALREADY_RETIRED
  | NOT_DRAINING
  | VERSION_ALREADY_EXISTS
  deriving DecidableEq

/-- A refusal, with its message. -/
structure CredentialLifecycleError where
  code : CredentialLifecycleErrorCode
  message : String
  deriving DecidableEq

/-- The version an account is rotated to. -/
structure RotatedVersion where
  version : String
  secretReference : String
  secretVersion : Int
  source : Option CredentialSource := none
  expiresAt : Option String := none
  deriving DecidableEq

/-- What can be asked of an account. -/
inductive CredentialLifecycleCommand
  | record_test (evidence : CredentialTestEvidence)
  | activate
  | start_drain
  | complete_drain
  | retire
  | revoke
  | rotate (next : RotatedVersion)
  deriving DecidableEq

/-- A test counts for a day. -/
def DEFAULT_TEST_EVIDENCE_MAX_AGE_MS : Int := 24 * 60 * 60 * 1000

section Transitions

variable (parse : String → Option Int)

/-- The last test passed, and not too long ago. -/
def isActivationGateSatisfied (account : CredentialAccount) (now : String)
    (maxAgeMs : Option Int) : Bool :=
  match account.lastTest with
  | none => false
  | some evidence =>
    if evidence.status ≠ .passed then false
    else match parse now, parse evidence.testedAt with
      | some nowMs, some testedMs =>
        nowMs - testedMs ≤ maxAgeMs.getD DEFAULT_TEST_EVIDENCE_MAX_AGE_MS
      | _, _ => false

namespace CredentialAccount

/-- A retired account takes no command. -/
def assertNotRetired (account : CredentialAccount) : Except CredentialLifecycleError Unit :=
  if account.status = .retired then
    throw ⟨.ALREADY_RETIRED, "CredentialAccount " ++ account.id ++ " is retired."⟩
  else pure ()

/-- The gate both ways of activating an account pass. -/
def assertActivationGate (account : CredentialAccount) (now : String) (maxAgeMs : Option Int) :
    Except CredentialLifecycleError Unit :=
  if ¬ isActivationGateSatisfied parse account now maxAgeMs then
    throw ⟨.ACTIVATION_GATE_FAILED,
      "Activate requires a recent passed connectivity/capability probe."⟩
  else pure ()

/-- A test is recorded as the last one. -/
def recordTest (account : CredentialAccount) (evidence : CredentialTestEvidence) (now : String) :
    Except CredentialLifecycleError CredentialAccount := do
  assertNotRetired account
  return { account with
    lastTest := some evidence
    lastTestEvidenceRef := some evidence.evidenceRef
    verifiedAt := if evidence.status = .passed then some evidence.testedAt else account.verifiedAt
    updatedAt := now }

/-- A tested account is activated. -/
def activate (account : CredentialAccount) (now : String) (maxAgeMs : Option Int) :
    Except CredentialLifecycleError CredentialAccount :=
  if account.status = .active then do
    assertActivationGate parse account now maxAgeMs
    return { account with status := .active, drainSubstate := .none, updatedAt := now }
  else if account.status ≠ .pending then
    throw ⟨.INVALID_TRANSITION, "Cannot activate CredentialAccount in status=" ++
      account.status.text ++ "."⟩
  else do
    assertActivationGate parse account now maxAgeMs
    return { account with
      status := .active
      drainSubstate := .none
      verifiedAt := some ((account.lastTest.map (·.testedAt)).getD now)
      updatedAt := now }

/-- An active account begins to drain. -/
def startDrain (account : CredentialAccount) (now : String) :
    Except CredentialLifecycleError CredentialAccount :=
  if account.status ≠ .active then
    throw ⟨.INVALID_TRANSITION,
      "Drain is only allowed on active CredentialAccount (async media sub-state)."⟩
  else pure { account with drainSubstate := .draining, updatedAt := now }

/-- A drain is over; the account stays active. -/
def completeDrain (account : CredentialAccount) (now : String) :
    Except CredentialLifecycleError CredentialAccount :=
  if account.status ≠ .active then
    throw ⟨.INVALID_TRANSITION, "complete_drain requires active status."⟩
  else if account.drainSubstate ≠ .draining then
    throw ⟨.NOT_DRAINING, "CredentialAccount is not draining."⟩
  else pure { account with drainSubstate := .none, updatedAt := now }

/-- Retiring and revoking. -/
def retire (account : CredentialAccount) (now : String) : CredentialAccount :=
  if account.status = .retired then account
  else { account with status := .retired, drainSubstate := .none, updatedAt := now }

/-- The snapshot a rotation appends. -/
def snapshotOf (next : RotatedVersion) (account : CredentialAccount) (now : String) :
    CredentialVersionSnapshot where
  version := next.version
  secretReference := next.secretReference
  secretVersion := next.secretVersion
  createdAt := now
  source := next.source.getD account.source

/-- The account rotated to a version: pending again, its test evidence gone. -/
def rotated (account : CredentialAccount) (next : RotatedVersion)
    (now : String) : CredentialAccount :=
  { account with
    status := .pending
    drainSubstate := .none
    version := next.version
    secretReference := next.secretReference
    secretVersion := next.secretVersion
    source := next.source.getD account.source
    lastTest := none
    lastTestEvidenceRef := none
    verifiedAt := none
    expiresAt := (truthy next.expiresAt).or account.expiresAt
    versionHistory := account.versionHistory ++ [snapshotOf next account now]
    updatedAt := now }

/-- The head moves to another version, which is to be tested again. -/
def rotate (account : CredentialAccount) (next : RotatedVersion) (now : String) :
    Except CredentialLifecycleError CredentialAccount := do
  assertNotRetired account
  if account.status ≠ .active ∧ account.status ≠ .pending then
    throw ⟨.INVALID_TRANSITION, "Cannot rotate CredentialAccount in status=" ++
      account.status.text ++ "."⟩
  if account.versionHistory.any fun row =>
      row.version = next.version ∨ row.secretVersion = next.secretVersion then
    throw ⟨.VERSION_ALREADY_EXISTS, "Credential version " ++ next.version ++
      " already exists; rotation never rewrites history."⟩
  return rotated account next now

end CredentialAccount

/-- The clock and the age of tests, where the caller gives them. -/
structure LifecycleOptions where
  now : Option String := none
  maxTestAgeMs : Option Int := none
  deriving DecidableEq

/-- One command on an account. -/
def transitionCredentialLifecycle (account : CredentialAccount)
    (command : CredentialLifecycleCommand) (options : LifecycleOptions) (clock : String) :
    Except CredentialLifecycleError CredentialAccount :=
  let now := options.now.getD clock
  match command with
  | .record_test evidence => account.recordTest evidence now
  | .activate => account.activate parse now options.maxTestAgeMs
  | .start_drain => account.startDrain now
  | .complete_drain => account.completeDrain now
  | .retire | .revoke => pure (account.retire now)
  | .rotate next => account.rotate next now

end Transitions

/-- The version a request was frozen to. -/
def resolveFrozenCredentialVersion (account : CredentialAccount) (frozenVersion : String) :
    Option CredentialVersionSnapshot :=
  account.versionHistory.find? (·.version = frozenVersion)

end MeiyeAgent
