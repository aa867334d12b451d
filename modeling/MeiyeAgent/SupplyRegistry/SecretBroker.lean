import MeiyeAgent.SupplyRegistry.CredentialAccounts

/-!
# SupplyRegistry/SecretBroker — the secret of a version, handed out at request time

A request that is frozen to a version is served that version; one that is not is served the head,
unless the account is pending or draining.  The store of the secrets is read through what it answers.
-/

namespace MeiyeAgent

open Effect

inductive SecretBrokerErrorCode
  | ACCOUNT_NOT_FOUND
  | ACCOUNT_PENDING
  | VERSION_NOT_FOUND
  | VERSION_NOT_CURRENT
  | ACCOUNT_RETIRED
  | ACCOUNT_EXPIRED
  | SECRET_UNAVAILABLE
  | SCOPE_ISOLATION
  deriving DecidableEq

structure SecretBrokerError where
  code : SecretBrokerErrorCode
  message : String
  deriving DecidableEq

structure AssembleCredentialRequest where
  credentialAccountId : String
  frozenVersion : Option String := none
  requiredScope : CredentialScope
  deriving DecidableEq

structure AssembledCredential where
  credentialAccountId : String
  version : String
  secretReference : String
  secretVersion : Int
  scope : CredentialScope
  secret : String
  deriving DecidableEq

structure SecretContext where
  workspaceId : String
  credentialId : String
  version : Int
  provider : IntegrationProvider
  deriving DecidableEq

/-- `SecretStorePort.use`: a secret, or the message of what it threw. -/
abbrev SecretUse := String → SecretContext → Except String String

def CredentialScope.text : CredentialScope → String
  | .platform => "platform"
  | .workspace_byok => "workspace_byok"

section Broker

variable (parse : String → Option Int) (use : SecretUse) (nowMs : Int)

/-- An account that is over. -/
def CredentialAccount.expired (account : CredentialAccount) : Bool :=
  ((truthy account.expiresAt).bind parse).any (· ≤ nowMs)

/-- The account a request may be served from. -/
def servingAccount (account : Option CredentialAccount) (id : String)
    (requiredScope : CredentialScope) : Except SecretBrokerError CredentialAccount :=
  match account with
  | none => throw ⟨.ACCOUNT_NOT_FOUND, "CredentialAccount " ++ id ++ " not found."⟩
  | some account =>
    if account.scope ≠ requiredScope then
      throw ⟨.SCOPE_ISOLATION, "CredentialAccount scope=" ++ account.scope.text ++
        " cannot serve requiredScope=" ++ requiredScope.text ++ "."⟩
    else if account.status = .retired then
      throw ⟨.ACCOUNT_RETIRED, "CredentialAccount " ++ account.id ++ " is retired."⟩
    else if account.expired parse nowMs then
      throw ⟨.ACCOUNT_EXPIRED, "CredentialAccount " ++ account.id ++ " expired at " ++
        account.expiresAt.getD "" ++ "."⟩
    else pure account

/-- The context of a secret of an account. -/
def secretContext (account : CredentialAccount) (secretVersion : Int) : SecretContext where
  workspaceId := account.workspaceId
  credentialId := account.credentialId
  version := secretVersion
  provider := account.provider

/-- What is handed out of a snapshot. -/
def assembleSnapshot (account : CredentialAccount) (frozen : CredentialVersionSnapshot) :
    Except SecretBrokerError AssembledCredential :=
  match use frozen.secretReference (secretContext account frozen.secretVersion) with
  | .error message => throw ⟨.SECRET_UNAVAILABLE, message⟩
  | .ok secret => pure
    { credentialAccountId := account.id
      version := frozen.version
      secretReference := frozen.secretReference
      secretVersion := frozen.secretVersion
      scope := account.scope
      secret }

def assembleVersion (account : CredentialAccount) (requestedVersion : String) :
    Except SecretBrokerError AssembledCredential :=
  match resolveFrozenCredentialVersion account requestedVersion with
  | none => throw ⟨.VERSION_NOT_FOUND, "Frozen credential version " ++ requestedVersion ++
      " is not recorded on " ++ account.id ++ "; refusing silent upgrade."⟩
  | some frozen => assembleSnapshot use account frozen

def headAssemblyBlocked (account : CredentialAccount) : Bool :=
  account.status = .pending || account.drainSubstate = .draining

namespace RequestTimeSecretBroker

/-- `account` is what the directory answers. -/
def assembleForRequest (account : Option CredentialAccount) (request : AssembleCredentialRequest) :
    Except SecretBrokerError AssembledCredential := do
  let account ← servingAccount parse nowMs account request.credentialAccountId
    request.requiredScope
  if headAssemblyBlocked account ∧ truthy request.frozenVersion = none then
    throw ⟨.ACCOUNT_PENDING, "CredentialAccount " ++ account.id ++ " is " ++
      (if account.status = .pending then "pending" else "draining") ++
      "; new head assembly is blocked until re-activation."⟩
  assembleVersion use account (request.frozenVersion.getD account.version)

/-- The probe of the head, whatever its state. -/
def assembleForConnectivityTest (account : Option CredentialAccount) (id version : String)
    (requiredScope : CredentialScope) : Except SecretBrokerError AssembledCredential := do
  let account ← servingAccount parse nowMs account id requiredScope
  if version ≠ account.version then
    throw ⟨.VERSION_NOT_CURRENT, "Credential version " ++ version ++
      " is no longer the current head for " ++ account.id ++ "."⟩
  assembleVersion use account version

end RequestTimeSecretBroker

end Broker

end MeiyeAgent
