import MeiyeAgent.Machinery.SideBySide
import MeiyeAgent.SupplyRegistry.SecretBroker

/-!
# SupplyRegistry/ServedCredentials — an untested credential never serves a request

The history keeps the transitions of an account that were taken, each with the account it was taken
from.  A version is handed out to requests only if it was activated, and tested before that;
`credentialsServed` carries the law over a run in which a pending account is neither rotated nor
served to a request that is frozen to its head: then every version but a pending head was active.
-/

namespace MeiyeAgent

open Effect

/-! ## Histories -/

/-- A transition that was taken, and the account it was taken from. -/
structure CredentialEvent where
  command : CredentialLifecycleCommand
  account : CredentialAccount
  deriving DecidableEq

/-- A passed test is recorded while a version is the head. -/
def CredentialEvent.Tests (version : String) (event : CredentialEvent) : Prop :=
  event.account.version = version ∧
    ∃ evidence, event.command = .record_test evidence ∧ evidence.status = .passed

/-- The account is activated while a version is its head. -/
def CredentialEvent.Activates (version : String) (event : CredentialEvent) : Prop :=
  event.account.version = version ∧ event.command = .activate

/-- **A version was the head at a successful activation**, and a passed test had been recorded of it
before that, since it became the head. -/
def ActivatedAfterTest (events : List CredentialEvent) (version : String) : Prop :=
  ∃ before event after, events = before ++ event :: after ∧ event.Activates version ∧
    ∃ test ∈ before, test.Tests version

structure CredentialHistory where
  account : CredentialAccount
  events : List CredentialEvent

inductive CredentialCall
  | transition (command : CredentialLifecycleCommand) (options : LifecycleOptions)
  | assembleForRequest (request : AssembleCredentialRequest) (use : SecretUse)
  | assembleForConnectivityTest (id version : String) (requiredScope : CredentialScope)
    (use : SecretUse)

/-- A call, and the clock at it. -/
abbrev CredentialStep := Int × CredentialCall

/-- What the directory answers. -/
def CredentialHistory.find (h : CredentialHistory) (id : String) : Option CredentialAccount :=
  if h.account.id = id then some h.account else none

section Laws

variable (parse : String → Option Int)

def CredentialHistory.next (h : CredentialHistory) : CredentialStep → CredentialHistory
  | (nowMs, .transition command options) =>
    match transitionCredentialLifecycle parse h.account command options (isoText nowMs) with
    | .ok account => ⟨account, h.events ++ [⟨command, h.account⟩]⟩
    | .error _ => h
  | (_, .assembleForRequest _ _) | (_, .assembleForConnectivityTest _ _ _ _) => h

/-- What a request is answered. -/
def CredentialHistory.answer (h : CredentialHistory) (nowMs : Int)
    (request : AssembleCredentialRequest) (use : SecretUse) :
    Except SecretBrokerError AssembledCredential :=
  RequestTimeSecretBroker.assembleForRequest parse use nowMs (h.find request.credentialAccountId)
    request

/-- A request is one the account may serve. -/
def CredentialHistory.Serves (h : CredentialHistory) (nowMs : Int)
    (request : AssembleCredentialRequest) : Prop :=
  h.account.id = request.credentialAccountId ∧ h.account.scope = request.requiredScope ∧
    h.account.status ≠ .retired ∧ h.account.expired parse nowMs = false

/-- **What the next call does.** -/
structure CredentialLaw (h : CredentialHistory) (step : CredentialStep) : Prop where
  /-- a secret is handed out of a version that was tested and activated, by an account that may -/
  served : ∀ request use credential, step.2 = .assembleForRequest request use →
    h.answer parse step.1 request use = .ok credential →
      ActivatedAfterTest h.events credential.version ∧ h.Serves parse step.1 request ∧
        ∃ snapshot ∈ h.account.versionHistory, snapshot.version = credential.version ∧
          assembleSnapshot use h.account snapshot = .ok credential
  /-- a request frozen to a version gets that version and nothing else -/
  frozen : ∀ request use version snapshot, step.2 = .assembleForRequest request use →
    request.frozenVersion = some version → version ≠ "" → h.Serves parse step.1 request →
    snapshot ∈ h.account.versionHistory → snapshot.version = version →
      h.answer parse step.1 request use = assembleSnapshot use h.account snapshot
  /-- a snapshot stays as it was recorded -/
  kept : h.account.versionHistory <+: (h.next parse step).account.versionHistory
  /-- retired is final -/
  final : h.account.status = .retired → (h.next parse step).account = h.account

/-- **The head of a pending account is left alone**: no request is frozen to it, and it is not
rotated away. -/
def FrozenWhenActive (h : CredentialHistory) (step : CredentialStep) : Prop :=
  h.account.status = .pending →
    (∀ request use, step.2 = .assembleForRequest request use → h.Serves parse step.1 request →
      request.frozenVersion ≠ some h.account.version) ∧
    ∀ next options, step.2 ≠ .transition (.rotate next) options

end Laws

/-! ## What one transition does -/

variable {parse : String → Option Int} {account account' : CredentialAccount}
  {command : CredentialLifecycleCommand} {options : LifecycleOptions} {clock : String}

/-- A transition that leaves the head as it is. -/
structure SameHead (account account' : CredentialAccount) : Prop where
  version : account'.version = account.version
  history : account'.versionHistory = account.versionHistory

/-- **What a transition that is taken makes of an account.** -/
inductive TransitionOutcome (account : CredentialAccount) :
    CredentialLifecycleCommand → CredentialAccount → Prop
  | tested {evidence : CredentialTestEvidence} {account' : CredentialAccount}
    (same : SameHead account account') (alive : account.status ≠ .retired)
    (status : account'.status = account.status) (test : account'.lastTest = some evidence) :
    TransitionOutcome account (.record_test evidence) account'
  | activated {evidence : CredentialTestEvidence} {account' : CredentialAccount}
    (same : SameHead account account') (alive : account.status ≠ .retired)
    (gate : account.lastTest = some evidence ∧ evidence.status = .passed)
    (test : account'.lastTest = account.lastTest) :
    TransitionOutcome account .activate account'
  | drained {command : CredentialLifecycleCommand} {account' : CredentialAccount}
    (hcommand : command = .start_drain ∨ command = .complete_drain)
    (same : SameHead account account') (active : account.status = .active)
    (test : account'.lastTest = account.lastTest) : TransitionOutcome account command account'
  | retired {command : CredentialLifecycleCommand} {account' : CredentialAccount}
    (hcommand : command = .retire ∨ command = .revoke)
    (same : SameHead account account') (status : account'.status = .retired)
    (test : account'.lastTest = account.lastTest)
    (final : account.status = .retired → account' = account) :
    TransitionOutcome account command account'
  | rotated {next : RotatedVersion} {now : String} (alive : account.status ≠ .retired)
    (fresh : next.version ∉ account.versionHistory.map (·.version)) :
    TransitionOutcome account (.rotate next) (account.rotated next now)

theorem gate_satisfied {now : String} {maxAgeMs : Option Int}
    (h : account.assertActivationGate parse now maxAgeMs = .ok ()) :
    ∃ evidence, account.lastTest = some evidence ∧ evidence.status = .passed := by
  have hgate : isActivationGateSatisfied parse account now maxAgeMs = true := by
    by_contra hnot
    rw [CredentialAccount.assertActivationGate, if_pos hnot] at h
    cases h
  rw [isActivationGateSatisfied] at hgate
  cases htest : account.lastTest with
  | none => simp [htest] at hgate
  | some evidence =>
    refine ⟨evidence, rfl, ?_⟩
    by_contra hnot
    simp [htest, hnot] at hgate

theorem alive_of_assert (h : account.assertNotRetired = .ok ()) : account.status ≠ .retired := by
  intro hretired
  rw [CredentialAccount.assertNotRetired, if_pos hretired] at h
  cases h

theorem outcome_activate {now : String} {maxAgeMs : Option Int}
    (h : account.activate parse now maxAgeMs = .ok account') :
    TransitionOutcome account .activate account' := by
  rw [CredentialAccount.activate] at h
  split at h
  · next hactive =>
    simp only [bind_eq_ok, pure_eq_ok] at h
    obtain ⟨_, hgate, rfl⟩ := h
    obtain ⟨evidence, hpassed⟩ := gate_satisfied hgate
    exact .activated ⟨rfl, rfl⟩ (by rw [hactive]; decide) hpassed rfl
  · split at h
    · cases h
    · next hpending =>
      simp only [bind_eq_ok, pure_eq_ok] at h
      obtain ⟨_, hgate, rfl⟩ := h
      obtain ⟨evidence, hpassed⟩ := gate_satisfied hgate
      exact .activated ⟨rfl, rfl⟩ (by rw [not_not.mp hpending]; decide) hpassed rfl

theorem outcome_retire {now : String} (hcommand : command = .retire ∨ command = .revoke) :
    TransitionOutcome account command (account.retire now) := by
  rw [CredentialAccount.retire]
  split
  · next hretired => exact .retired hcommand ⟨rfl, rfl⟩ hretired rfl fun _ => rfl
  · next halive => exact .retired hcommand ⟨rfl, rfl⟩ rfl rfl fun hretired => absurd hretired halive

theorem outcome_rotate {next : RotatedVersion} {now : String}
    (h : account.rotate next now = .ok account') :
    TransitionOutcome account (.rotate next) account' := by
  simp only [CredentialAccount.rotate, bind_eq_ok] at h
  obtain ⟨_, halive, h⟩ := h
  split at h
  · cases h
  · split at h
    · cases h
    · next hfresh =>
      obtain rfl := Except.ok.inj h
      refine .rotated (alive_of_assert halive) fun hmem => hfresh ?_
      obtain ⟨row, hrow, heq⟩ := List.mem_map.mp hmem
      exact List.any_eq_true.mpr ⟨row, hrow, decide_eq_true (.inl heq)⟩

theorem outcome_of_transition
    (h : transitionCredentialLifecycle parse account command options clock = .ok account') :
    TransitionOutcome account command account' := by
  cases command with
  | record_test evidence =>
    simp only [transitionCredentialLifecycle, CredentialAccount.recordTest, bind_eq_ok,
      pure_eq_ok] at h
    obtain ⟨_, halive, rfl⟩ := h
    exact .tested ⟨rfl, rfl⟩ (alive_of_assert halive) rfl rfl
  | activate => exact outcome_activate h
  | start_drain =>
    rw [transitionCredentialLifecycle, CredentialAccount.startDrain] at h
    split at h
    · cases h
    · next hactive =>
      obtain rfl := Except.ok.inj h
      exact .drained (.inl rfl) ⟨rfl, rfl⟩ (not_not.mp hactive) rfl
  | complete_drain =>
    rw [transitionCredentialLifecycle, CredentialAccount.completeDrain] at h
    split at h
    · cases h
    · next hactive =>
      split at h
      · cases h
      · obtain rfl := Except.ok.inj h
        exact .drained (.inr rfl) ⟨rfl, rfl⟩ (not_not.mp hactive) rfl
  | retire =>
    obtain rfl := Except.ok.inj h
    exact outcome_retire (.inl rfl)
  | revoke =>
    obtain rfl := Except.ok.inj h
    exact outcome_retire (.inr rfl)
  | rotate next => exact outcome_rotate h

/-! ## The invariant -/

/-- **What is known of an account from its history.** -/
structure CredentialInvariant (h : CredentialHistory) : Prop where
  distinct : (h.account.versionHistory.map (·.version)).Nodup
  active : h.account.status = .active → ActivatedAfterTest h.events h.account.version
  tested : ∀ evidence, h.account.lastTest = some evidence → evidence.status = .passed →
    ∃ event ∈ h.events, event.Tests h.account.version
  past : ∀ snapshot ∈ h.account.versionHistory, snapshot.version ≠ h.account.version →
    ActivatedAfterTest h.events snapshot.version

/-- What was tested and activated stays so. -/
theorem ActivatedAfterTest.append {events later : List CredentialEvent} {version : String}
    (h : ActivatedAfterTest events version) : ActivatedAfterTest (events ++ later) version := by
  obtain ⟨before, event, after, rfl, hrest⟩ := h
  exact ⟨before, event, after ++ later, by simp, hrest⟩

variable {h : CredentialHistory} {step : CredentialStep}

/-- The activation just taken followed a test. -/
theorem activatedAfterTest_of_activation (hinv : CredentialInvariant h) {evidence : CredentialTestEvidence}
    (hgate : h.account.lastTest = some evidence ∧ evidence.status = .passed) :
    ActivatedAfterTest (h.events ++ [⟨.activate, h.account⟩]) h.account.version :=
  ⟨h.events, ⟨.activate, h.account⟩, [], rfl, ⟨rfl, rfl⟩, hinv.tested evidence hgate.1 hgate.2⟩

/-- **A transition keeps the invariant**, where a rotation is of an account that is not pending. -/
theorem invariant_of_outcome (hinv : CredentialInvariant h)
    (hout : TransitionOutcome h.account command account')
    (hrotated : ∀ next, command = .rotate next → h.account.status ≠ .pending) :
    CredentialInvariant ⟨account', h.events ++ [⟨command, h.account⟩]⟩ := by
  have hpast (same : SameHead h.account account') : ∀ snapshot ∈ account'.versionHistory,
      snapshot.version ≠ account'.version →
        ActivatedAfterTest (h.events ++ [⟨command, h.account⟩]) snapshot.version := by
    rw [same.history, same.version]
    exact fun snapshot hmem hne => (hinv.past snapshot hmem hne).append
  have htested {evidence : CredentialTestEvidence} (htest : h.account.lastTest = some evidence)
      (hpassed : evidence.status = .passed) :
      ∃ event ∈ h.events ++ [⟨command, h.account⟩], event.Tests h.account.version := by
    obtain ⟨event, hmem, hevent⟩ := hinv.tested evidence htest hpassed
    exact ⟨event, List.mem_append_left _ hmem, hevent⟩
  cases hout with
  | @tested evidence _ same alive status test =>
    refine ⟨same.history ▸ hinv.distinct, fun hactive => ?_, fun evidence' htest hpassed => ?_,
      hpast same⟩
    · rw [same.version]
      exact (hinv.active (status.symm.trans hactive)).append
    · rw [same.version]
      obtain rfl := Option.some.inj (test.symm.trans htest)
      exact ⟨_, List.mem_append_right _ (List.mem_singleton_self _), rfl, _, rfl, hpassed⟩
  | activated same alive gate test =>
    refine ⟨same.history ▸ hinv.distinct, fun _ => ?_, fun evidence' htest hpassed => ?_,
      hpast same⟩
    · rw [same.version]
      exact activatedAfterTest_of_activation hinv gate
    · rw [same.version]
      exact htested (test.symm.trans htest) hpassed
  | drained hcommand same active test =>
    refine ⟨same.history ▸ hinv.distinct, fun _ => ?_, fun evidence' htest hpassed => ?_,
      hpast same⟩
    · rw [same.version]
      exact (hinv.active active).append
    · rw [same.version]
      exact htested (test.symm.trans htest) hpassed
  | retired hcommand same status test final =>
    refine ⟨same.history ▸ hinv.distinct, fun hactive => ?_, fun evidence' htest hpassed => ?_,
      hpast same⟩
    · rw [status] at hactive
      cases hactive
    · rw [same.version]
      exact htested (test.symm.trans htest) hpassed
  | @rotated next _ alive fresh =>
    have hactive : h.account.status = .active := by
      have hpending := hrotated next rfl
      cases hstatus : h.account.status with
      | active => rfl
      | pending => exact absurd hstatus hpending
      | retired => exact absurd hstatus alive
    refine ⟨?_, fun hpending => ?_, fun evidence htest => ?_, fun snapshot hmem hne => ?_⟩
    · simp only [CredentialAccount.rotated, List.map_append, List.nodup_append]
      refine ⟨hinv.distinct, List.nodup_singleton _, fun version hversion version' hmem heq => ?_⟩
      obtain rfl := List.mem_singleton.mp hmem
      have hversionNext : version = next.version := heq
      exact fresh (hversionNext ▸ hversion)
    · cases hpending
    · cases htest
    · rcases List.mem_append.mp hmem with hmem | hmem
      · -- the old head was active, so it was activated
        by_cases hhead : snapshot.version = h.account.version
        · exact hhead ▸ (hinv.active hactive).append
        · exact (hinv.past snapshot hmem hhead).append
      · obtain rfl := List.mem_singleton.mp hmem
        exact absurd rfl hne

/-- A transition keeps the snapshots, and leaves a retired account as it is. -/
theorem kept_of_outcome (hout : TransitionOutcome account command account') :
    account.versionHistory <+: account'.versionHistory ∧
      (account.status = .retired → account' = account) := by
  cases hout with
  | tested same alive => exact ⟨same.history ▸ List.prefix_rfl, fun h => absurd h alive⟩
  | activated same alive => exact ⟨same.history ▸ List.prefix_rfl, fun h => absurd h alive⟩
  | drained hcommand same active =>
    refine ⟨same.history ▸ List.prefix_rfl, fun h => ?_⟩
    rw [active] at h
    cases h
  | retired hcommand same status test final => exact ⟨same.history ▸ List.prefix_rfl, final⟩
  | rotated alive fresh => exact ⟨List.prefix_append _ _, fun h => absurd h alive⟩

/-! ## What a request is served -/

/-- A request that is served is one the account may serve. -/
theorem serving_eq_ok {nowMs : Int} {request : AssembleCredentialRequest} :
    servingAccount parse nowMs (h.find request.credentialAccountId) request.credentialAccountId
      request.requiredScope = .ok account ↔ account = h.account ∧ h.Serves parse nowMs request := by
  by_cases hid : h.account.id = request.credentialAccountId
  · rw [CredentialHistory.find, if_pos hid, servingAccount, CredentialHistory.Serves]
    by_cases hscope : h.account.scope = request.requiredScope
    · rw [if_neg (not_not.mpr hscope)]
      by_cases hretired : h.account.status = .retired
      · simp [hretired]
      · rw [if_neg hretired]
        cases hexpired : h.account.expired parse nowMs with
        | true => simp
        | false => simp [hid, hscope, hretired, eq_comm, pure, Except.pure]
    · simp [hscope]
  · rw [CredentialHistory.find, if_neg hid, servingAccount, CredentialHistory.Serves]
    simp [hid]

/-- **What is handed out**: a snapshot of the version asked for, or of the head of an account that
is neither pending nor draining. -/
theorem answer_eq_ok {nowMs : Int} {request : AssembleCredentialRequest} {use : SecretUse}
    {credential : AssembledCredential} (hok : h.answer parse nowMs request use = .ok credential) :
    h.Serves parse nowMs request ∧
      ∃ snapshot ∈ h.account.versionHistory, snapshot.version = credential.version ∧
        assembleSnapshot use h.account snapshot = .ok credential ∧
        (request.frozenVersion = some credential.version ∨
          h.account.status = .active ∧ credential.version = h.account.version) := by
  simp only [CredentialHistory.answer, RequestTimeSecretBroker.assembleForRequest, bind_eq_ok] at hok
  obtain ⟨account, hserving, hok⟩ := hok
  obtain ⟨rfl, hserves⟩ := serving_eq_ok.mp hserving
  split at hok
  · cases hok
  · next hblocked =>
    refine ⟨hserves, ?_⟩
    rw [assembleVersion] at hok
    split at hok
    · cases hok
    · next snapshot hfind =>
      have hversion : snapshot.version = request.frozenVersion.getD h.account.version := by
        simpa using List.find?_some hfind
      have hcredential : credential.version = snapshot.version := by
        rw [assembleSnapshot] at hok
        split at hok
        · cases hok
        · obtain rfl := Except.ok.inj hok
          rfl
      refine ⟨snapshot, List.mem_of_find?_eq_some hfind, hcredential.symm, hok, ?_⟩
      cases hfrozen : request.frozenVersion with
      | some version =>
        rw [hfrozen, Option.getD_some] at hversion
        exact .inl (congrArg some (hversion.symm.trans hcredential.symm))
      | none =>
        rw [hfrozen, Option.getD_none] at hversion
        refine .inr ⟨?_, hcredential.trans hversion⟩
        have hopen : headAssemblyBlocked h.account = false :=
          Bool.eq_false_iff.mpr fun htrue => hblocked ⟨htrue, by rw [hfrozen]; rfl⟩
        have hretired := hserves.2.2.1
        cases hstatus : h.account.status with
        | active => rfl
        | pending => simp [headAssemblyBlocked, hstatus] at hopen
        | retired => exact absurd hstatus hretired

/-- A recorded version is found as it was recorded. -/
theorem resolve_of_mem (hdistinct : (account.versionHistory.map (·.version)).Nodup)
    {snapshot : CredentialVersionSnapshot} (hmem : snapshot ∈ account.versionHistory) :
    resolveFrozenCredentialVersion account snapshot.version = some snapshot := by
  rw [resolveFrozenCredentialVersion]
  have hsome : (account.versionHistory.find? (·.version = snapshot.version)).isSome :=
    List.find?_isSome.mpr ⟨snapshot, hmem, decide_eq_true rfl⟩
  obtain ⟨found, hfound⟩ := Option.isSome_iff_exists.mp hsome
  have hversion : found.version = snapshot.version := by simpa using List.find?_some hfound
  rw [hfound, List.inj_on_of_nodup_map hdistinct (List.mem_of_find?_eq_some hfound) hmem hversion]

/-- **One call** does what the law says, and keeps the invariant. -/
theorem credentialLaw_step (hinv : CredentialInvariant h) (hmet : FrozenWhenActive parse h step) :
    CredentialInvariant (h.next parse step) ∧ CredentialLaw parse h step := by
  have hnext : CredentialInvariant (h.next parse step) ∧
      h.account.versionHistory <+: (h.next parse step).account.versionHistory ∧
      (h.account.status = .retired → (h.next parse step).account = h.account) := by
    obtain ⟨nowMs, call⟩ := step
    cases call with
    | transition command options =>
      simp only [CredentialHistory.next]
      cases htransition : transitionCredentialLifecycle parse h.account command options
          (isoText nowMs) with
      | ok account =>
        have hout := outcome_of_transition htransition
        refine ⟨invariant_of_outcome hinv hout fun next hcommand hpending => ?_,
          kept_of_outcome hout⟩
        exact (hmet hpending).2 next options (by rw [hcommand])
      | error e => exact ⟨hinv, List.prefix_rfl, fun _ => rfl⟩
    | assembleForRequest request use => exact ⟨hinv, List.prefix_rfl, fun _ => rfl⟩
    | assembleForConnectivityTest id version scope use =>
      exact ⟨hinv, List.prefix_rfl, fun _ => rfl⟩
  refine ⟨hnext.1, ⟨fun request use credential hcall hok => ?_,
    fun request use version snapshot hcall hfrozen hne hserves hmem hversion => ?_,
    hnext.2.1, hnext.2.2⟩⟩
  · obtain ⟨hserves, snapshot, hmem, hversion, hassembled, hasked⟩ := answer_eq_ok hok
    refine ⟨?_, hserves, snapshot, hmem, hversion, hassembled⟩
    rcases hasked with hfrozen | ⟨hactive, hhead⟩
    · by_cases hhead : snapshot.version = h.account.version
      · refine hversion ▸ hhead ▸ hinv.active ?_
        cases hstatus : h.account.status with
        | active => rfl
        | pending =>
          exact absurd (hfrozen.trans (congrArg some (hversion.symm.trans hhead)))
            ((hmet hstatus).1 request use hcall hserves)
        | retired => exact absurd hstatus hserves.2.2.1
      · exact hversion ▸ hinv.past snapshot hmem hhead
    · exact hhead ▸ hinv.active hactive
  · have hserving := serving_eq_ok.mpr ⟨rfl, hserves⟩
    have htruthy : truthy request.frozenVersion = some version := by
      rw [hfrozen]
      exact Option.filter_some_pos (decide_eq_true hne)
    subst hversion
    rw [CredentialHistory.answer, RequestTimeSecretBroker.assembleForRequest, hserving, htruthy,
      hfrozen]
    simp only [bind, Except.bind, reduceCtorEq, and_false, if_false, Option.getD_some]
    rw [assembleVersion, resolve_of_mem hinv.distinct hmem]

/-- **An untested credential never serves a request**, in every run of a new pending account in
which a pending head is neither frozen to nor rotated away. -/
theorem credentialsServed (input : CreateCredentialAccountInput) (clock : String)
    (hpending : input.status.getD .pending = .pending) (steps : List CredentialStep)
    (hmet : Admits (CredentialHistory.next parse) (FrozenWhenActive parse) steps
      ⟨createCredentialAccount input clock, []⟩) :
    Admits (CredentialHistory.next parse) (CredentialLaw parse) steps
      ⟨createCredentialAccount input clock, []⟩ := by
  refine Admits.beside CredentialInvariant (fun _ _ => credentialLaw_step) ?_ hmet
  refine ⟨List.nodup_singleton _, fun hactive => ?_, fun evidence htest => ?_,
    fun snapshot hmem hne => ?_⟩
  · have hstatus : input.status.getD .pending = .active := hactive
    rw [hpending] at hstatus
    cases hstatus
  · cases htest
  · obtain rfl := List.mem_singleton.mp hmem
    exact absurd rfl hne

/-! ## A run that meets the condition, and one that does not -/

def directAccount : CreateCredentialAccountInput where
  id := "account"
  label := "Direct"
  providerProfileId := "provider"
  type := "model.direct"
  scope := .platform
  secretReference := "secret://v1"
  version := "1"
  secretVersion := 1
  credentialId := "credential"
  connectionId := "connection"
  workspaceId := "workspace"
  provider := .model

def directRequest (frozenVersion : Option String) : CredentialCall :=
  .assembleForRequest ⟨"account", frozenVersion, .platform⟩ fun reference _ => .ok reference

/-- Tested, activated, rotated: a request frozen to the first version is still served. -/
theorem credentialsServed_rotated : Admits (CredentialHistory.next parseIso) (CredentialLaw parseIso)
    [(0, .transition (.record_test ⟨.passed, isoText 0, "test://1", none⟩) {}),
      (1, .transition .activate {}),
      (2, .transition (.rotate { version := "2", secretReference := "secret://v2"
                                 secretVersion := 2 }) {}),
      (3, directRequest (some "1")), (4, directRequest none)]
    ⟨createCredentialAccount directAccount (isoText 0), []⟩ := by
  refine credentialsServed directAccount (isoText 0) rfl _ ⟨?_, ?_, ?_, ?_, ?_, trivial⟩
  · exact fun _ => ⟨fun _ _ hcall => (by cases hcall), fun _ _ hcall => (by cases hcall)⟩
  · exact fun _ => ⟨fun _ _ hcall => (by cases hcall), fun _ _ hcall => (by cases hcall)⟩
  · intro hpending
    exact absurd hpending (by decide +kernel)
  · refine fun _ => ⟨fun request use hcall _ => ?_, fun _ _ hcall => (by cases hcall)⟩
    obtain ⟨rfl, rfl⟩ := CredentialCall.assembleForRequest.inj hcall
    decide +kernel
  · refine fun _ => ⟨fun request use hcall _ => ?_, fun _ _ hcall => (by cases hcall)⟩
    obtain ⟨rfl, rfl⟩ := CredentialCall.assembleForRequest.inj hcall
    decide +kernel

/-- **A pending account serves its head** to a request that is frozen to it. -/
theorem not_credentialsServed :
    ¬ Admits (CredentialHistory.next parseIso) (CredentialLaw parseIso) [(0, directRequest (some "1"))]
      ⟨createCredentialAccount directAccount (isoText 0), []⟩ := by
  rintro ⟨hlaw, _⟩
  obtain ⟨⟨before, event, after, hevents, _⟩, _⟩ :=
    hlaw.served _ _ ⟨"account", "1", "secret://v1", 1, .platform, "secret://v1"⟩ rfl
      (by decide +kernel)
  exact absurd (congrArg List.length hevents) (by simp)

end MeiyeAgent
