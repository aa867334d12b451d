import MeiyeAgent.Machinery.SideBySide
import MeiyeAgent.Machinery.Table
import MeiyeAgent.SupplyRegistry.HotAssembly

/-!
# SupplyRegistry/FrozenCapabilities — a frozen capability is never upgraded

The history keeps the revisions that were applied, in order.  A request is due the entry of the
revision first applied under its frozen id, or of the last one applied; a store **remembers** the
log when it resolves to that.  The instances in memory do so in a run that gives no id a second
content and finds no other binding under the joined text; the rows in Postgres do so in every run.
-/

namespace MeiyeAgent

open Effect

/-! ## What a request is due -/

/-- The revision first applied under an id. -/
def firstApplied (log : List RuntimeCapabilityRevision) (id : String) :
    Option RuntimeCapabilityRevision := log.find? (·.revisionId = id)

/-- The revision a request is about. -/
def revisionAsked (log : List RuntimeCapabilityRevision) (request : AssembleCapabilityRequest) :
    Option RuntimeCapabilityRevision :=
  match truthy request.frozenCapabilityRevisionId with
  | some id => firstApplied log id
  | none => log.getLast?

/-- **The entry a request is due**, with the id of its revision. -/
def entryDue (log : List RuntimeCapabilityRevision) (request : AssembleCapabilityRequest) :
    Option (String × RuntimeCapabilityEntry) :=
  (revisionAsked log request).bind fun revision =>
    (revision.entryOf request.deploymentId).map fun entry => (revision.revisionId, entry)

/-- The entry a resolution gives. -/
def ResolvedEntry.given (resolved : ResolvedEntry) : String × RuntimeCapabilityEntry :=
  (resolved.revision.revisionId, resolved.entry)

/-- **A store remembers a log**: its head, and the entries of each id. -/
structure RevisionStore.Remembers (store : RevisionStore)
    (log : List RuntimeCapabilityRevision) : Prop where
  head : store.head = log.getLast?
  keyed : ∀ id revision, store.history.get? id = some revision → revision.revisionId = id
  history : ∀ id, (store.history.get? id).map (·.entryOf) = (firstApplied log id).map (·.entryOf)
  same : ∀ revision ∈ log,
    (firstApplied log revision.revisionId).map (·.entryOf) = some revision.entryOf

section Resolution

variable {store : RevisionStore} {log : List RuntimeCapabilityRevision}
  {revision : RuntimeCapabilityRevision} {request : AssembleCapabilityRequest} {id : String}

theorem revisionId_of_firstApplied (h : firstApplied log id = some revision) :
    revision.revisionId = id := by
  simpa using List.find?_some h

section Keyed

variable {kept : OrderedMap String RuntimeCapabilityRevision}
  {listed : List RuntimeCapabilityRevision}

theorem nodup_listed
    (hkeyed : ∀ id revision, kept.get? id = some revision → revision.revisionId = id)
    (hperm : listed.Perm kept.values) : (listed.map (·.revisionId)).Nodup := by
  have hids : kept.values.map (·.revisionId) = kept.entries.map Prod.fst := by
    rw [OrderedMap.values, List.map_map]
    exact List.map_congr_left fun entry hentry =>
      hkeyed entry.1 entry.2 (OrderedMap.get?_eq_some.mpr hentry)
  rw [(hperm.map _).nodup_iff, hids]
  exact kept.nodup

/-- **A listed revision is found by its id**, in whatever order. -/
theorem find?_listed
    (hkeyed : ∀ id revision, kept.get? id = some revision → revision.revisionId = id)
    (hperm : listed.Perm kept.values) (id : String) :
    listed.find? (·.revisionId = id) = kept.get? id := by
  cases hget : kept.get? id with
  | some revision =>
    have hid := hkeyed id revision hget
    have hmem : revision ∈ listed := hperm.mem_iff.mpr (OrderedMap.mem_values_of_get? hget)
    exact Table.find?_of_nodup (nodup_listed hkeyed hperm) hmem fun other _ => by simp [hid]
  | none =>
    refine List.find?_eq_none.mpr fun other hother hid => ?_
    obtain ⟨key, hkey⟩ := OrderedMap.mem_values.mp (hperm.mem_iff.mp hother)
    have hother : other.revisionId = id := by simpa using hid
    rw [← hkeyed key other hkey, hother, hget] at hkey
    cases hkey

end Keyed

theorem resolveAtHead_given (head : RuntimeCapabilityRevision) (deploymentId : String) :
    (resolveAtHead head deploymentId).toOption.map (·.given) =
      (head.entryOf deploymentId).map fun entry => (head.revisionId, entry) := by
  rw [resolveAtHead]
  cases head.entryOf deploymentId <;> rfl

theorem resolveInHistory_given (history : List RuntimeCapabilityRevision)
    (frozen deploymentId : String) :
    (resolveInHistory history frozen deploymentId).toOption.map (·.given) =
      (history.find? (·.revisionId = frozen)).bind fun revision =>
        (revision.entryOf deploymentId).map fun entry => (revision.revisionId, entry) := by
  rw [resolveInHistory, resolveFrozenCapabilityEntry]
  cases history.find? (·.revisionId = frozen) with
  | none => rfl
  | some revision =>
    simp only [bind, Option.bind, pure]
    cases revision.entryOf deploymentId <;> rfl

/-- Revisions of one id with the same entries give the same. -/
theorem given_congr {one other : Option RuntimeCapabilityRevision} (deploymentId : String)
    (hone : ∀ revision, one = some revision → revision.revisionId = id)
    (hother : ∀ revision, other = some revision → revision.revisionId = id)
    (h : one.map (·.entryOf) = other.map (·.entryOf)) :
    (one.bind fun revision =>
      (revision.entryOf deploymentId).map fun entry => (revision.revisionId, entry)) =
    other.bind fun revision =>
      (revision.entryOf deploymentId).map fun entry => (revision.revisionId, entry) := by
  cases one with
  | none => rw [Option.map_eq_none_iff.mp h.symm]
  | some one =>
    obtain ⟨other, rfl, hentries⟩ := Option.map_eq_some_iff.mp h.symm
    rw [Option.bind_some, Option.bind_some, hone one rfl, hother other rfl]
    exact congrArg (Option.map _) (congrFun hentries deploymentId).symm

/-- **A store that remembers gives what is due.** -/
theorem RevisionStore.Remembers.resolves (h : store.Remembers log)
    (request : AssembleCapabilityRequest) :
    (resolveEntryForRequest store request).toOption.map (·.given) = entryDue log request := by
  rw [resolveEntryForRequest, entryDue, revisionAsked]
  cases hhead : store.head with
  | none =>
    have hlog : log = [] := List.getLast?_eq_none_iff.mp (h.head ▸ hhead)
    subst hlog
    cases truthy request.frozenCapabilityRevisionId <;> rfl
  | some head =>
    have hlast : log.getLast? = some head := h.head ▸ hhead
    cases truthy request.frozenCapabilityRevisionId with
    | none =>
      simp only [hlast, Option.bind_some]
      exact resolveAtHead_given head request.deploymentId
    | some frozen =>
      simp only
      split
      · next heq =>
        rw [resolveAtHead_given]
        have hone : ∀ revision, some head = some revision → revision.revisionId = frozen := by
          rintro _ ⟨⟩
          exact heq.symm
        refine given_congr request.deploymentId hone (fun _ => revisionId_of_firstApplied) ?_
        · rw [heq]
          exact (h.same head (List.mem_of_getLast? hlast)).symm
      · have hperm : store.listHistory.Perm store.history.values := List.perm_insertionSort _ _
        rw [resolveInHistory_given, find?_listed h.keyed hperm]
        exact given_congr request.deploymentId (h.keyed frozen)
          (fun _ => revisionId_of_firstApplied) (h.history frozen)

theorem firstApplied_append (log : List RuntimeCapabilityRevision)
    (revision : RuntimeCapabilityRevision) (id : String) :
    firstApplied (log ++ [revision]) id =
      (firstApplied log id).or (if revision.revisionId = id then some revision else none) := by
  rw [firstApplied, List.find?_append, List.find?_singleton]
  simp only [decide_eq_true_eq]
  rfl

/-- **A revision whose id is new, or has these entries already,** is remembered. -/
theorem RevisionStore.Remembers.set (h : store.Remembers log)
    (hsame : ∀ first, firstApplied log revision.revisionId = some first →
      revision.entryOf = first.entryOf) :
    (store.set revision).Remembers (log ++ [revision]) where
  head := by rw [List.getLast?_concat]; rfl
  keyed := OrderedMap.forall_get?_set rfl h.keyed
  history id := by
    rw [RevisionStore.set, OrderedMap.get?_set, firstApplied_append]
    split
    · next heq =>
      subst heq
      cases hfirst : firstApplied log revision.revisionId with
      | none => simp
      | some first => simp [hsame first hfirst]
    · next hne => rw [if_neg (Ne.symm hne), Option.or_none, h.history]
  same kept hkept := by
    rw [firstApplied_append]
    rcases List.mem_append.mp hkept with hbefore | hlast
    · obtain ⟨first, hfirst, hentries⟩ := Option.map_eq_some_iff.mp (h.same kept hbefore)
      rw [hfirst, Option.some_or, Option.map_some, hentries]
    · obtain rfl := List.mem_singleton.mp hlast
      cases hfirst : firstApplied log kept.revisionId with
      | none => simp
      | some first => simp [hsame first hfirst]

end Resolution

/-! ## Instances that share one store -/

inductive HotCall
  | applyCapabilityRevision (revision : RuntimeCapabilityRevision)
  | onChannel (channelId clock : String) (call : ChannelCall)
  | assembleForRequest (request : AssembleCapabilityRequest) (secrets : Option SecretBroker)

/-- The revision a call applies, where it returns. -/
def HotCall.revisions : HotCall → List RuntimeCapabilityRevision
  | .applyCapabilityRevision revision => (projectCapabilityRevision revision).toOption.toList
  | .onChannel _ _ _ | .assembleForRequest _ _ => []

/-- A call, and the instance it is made on. -/
abbrev HotStep := Nat × HotCall

structure HotSystem where
  store : RevisionStore := {}
  instances : Nat → RegistryInstance := fun _ => {}
  applied : List RuntimeCapabilityRevision := []

/-- **A request is answered as it is due**: with the binding of the entry, or with the error. -/
structure AnsweredAsDue (adapters : Option AdapterBindingDirectory)
    (lifecycle : RuntimeCapabilityEntry → ChannelLifecycleState)
    (log : List RuntimeCapabilityRevision) (store : RevisionStore)
    (request : AssembleCapabilityRequest) (secrets : Option SecretBroker)
    (answer : Except AssemblyError AssembledCapabilityBinding) : Prop where
  due : (resolveEntryForRequest store request).toOption.map (·.given) = entryDue log request
  served : ∀ binding, answer = .ok binding → ∃ resolved credential,
    resolveEntryForRequest store request = .ok resolved ∧
    credentialOf secrets request resolved.entry = .ok credential ∧
    binding = bindingOf adapters (request.role.getD .primary) resolved credential
      (lifecycle resolved.entry)
  answered : ∀ resolved credential, resolveEntryForRequest store request = .ok resolved →
    credentialOf secrets request resolved.entry = .ok credential →
    answer = .ok (bindingOf adapters (request.role.getD .primary) resolved credential
      (lifecycle resolved.entry))
  refused : ∀ e, resolveEntryForRequest store request = .error e → answer = .error (.hot e)

section Instances

open CapabilityHotAssemblyRegistry

variable (adapters : Option AdapterBindingDirectory)

def HotSystem.perform : HotCall → Registry Unit
  | .applyCapabilityRevision revision => (fun _ => ()) <$> applyCapabilityRevision revision
  | .onChannel channelId clock call => (fun _ => ()) <$> onChannel channelId clock call
  | .assembleForRequest request secrets =>
    (fun _ => ()) <$> assembleForRequest adapters request secrets

def HotSystem.next (h : HotSystem) (step : HotStep) : HotSystem :=
  match HotSystem.perform adapters step.2 (h.store, h.instances step.1) with
  | .ok _ (store, s) =>
    ⟨store, Function.update h.instances step.1 s, h.applied ++ step.2.revisions⟩
  | .error _ (store, s) => ⟨store, Function.update h.instances step.1 s, h.applied⟩

/-- What an instance answers a request. -/
def HotSystem.answer (h : HotSystem) (s : RegistryInstance) (request : AssembleCapabilityRequest)
    (secrets : Option SecretBroker) : Except AssemblyError AssembledCapabilityBinding :=
  result (assembleForRequest adapters request secrets) (h.store, s)

/-- **What the next call does.** -/
structure HotLaw (h : HotSystem) (step : HotStep) : Prop where
  /-- a request gets the entry first applied under its id, or that of the head -/
  served : ∀ request secrets, step.2 = .assembleForRequest request secrets →
    AnsweredAsDue adapters (lifecycleOf (h.instances step.1)) h.applied h.store request secrets
      (h.answer adapters (h.instances step.1) request secrets)
  /-- the cache is invisible -/
  invisible : ∀ request secrets, step.2 = .assembleForRequest request secrets →
    h.answer adapters (h.instances step.1) request secrets =
      h.answer adapters { h.instances step.1 with assemblyCache := .empty } request secrets

/-- **No id is given other entries than it was first applied with.** -/
def GivesNoOtherEntries (log : List RuntimeCapabilityRevision) (call : HotCall) : Prop :=
  ∀ revision validated first, call = .applyCapabilityRevision revision →
    projectCapabilityRevision revision = .ok validated →
    firstApplied log validated.revisionId = some first → validated.entryOf = first.entryOf

/-- A binding is kept for a role, of an entry, resolved on the same side of the head. -/
def AssembledCapabilityBinding.IsOf (binding : AssembledCapabilityBinding) (role : AssemblyRole)
    (resolved : ResolvedEntry) : Prop :=
  binding.role = role ∧ binding.capabilityRevisionId = resolved.revision.revisionId ∧
    binding.deploymentId = resolved.entry.deploymentId ∧
    binding.resolvedFromHistory = resolved.resolvedFromHistory

/-- **A request finds no binding but its own**: what is kept under the joined text is of the role
and the entry it resolves to. -/
def FindsItsOwn (h : HotSystem) (step : HotStep) : Prop :=
  ∀ request secrets resolved binding, step.2 = .assembleForRequest request secrets →
    resolveEntryForRequest h.store request = .ok resolved →
    cachedBinding adapters (h.instances step.1) request resolved = some binding →
      binding.IsOf (request.role.getD .primary) resolved

/-- The condition on one call. -/
def HotMet (h : HotSystem) (step : HotStep) : Prop :=
  GivesNoOtherEntries h.applied step.2 ∧ FindsItsOwn adapters h step

/-- A binding is that of an entry of no account, as first applied. -/
def BindsFirst (log : List RuntimeCapabilityRevision) (binding : AssembledCapabilityBinding) :
    Prop :=
  ∃ role resolved lifecycle, binding = bindingOf adapters role resolved none lifecycle ∧
    (firstApplied log resolved.revision.revisionId).bind
      (·.entryOf resolved.entry.deploymentId) = some resolved.entry

/-- **What holds between the calls.** -/
structure HotInvariant (h : HotSystem) : Prop where
  remembers : h.store.Remembers h.applied
  cached : ∀ i key binding, (h.instances i).assemblyCache.get? key = some binding →
    BindsFirst adapters h.applied binding

end Instances

section Instances

open CapabilityHotAssemblyRegistry

variable {adapters : Option AdapterBindingDirectory} {h : HotSystem} {step : HotStep}
  {store : RevisionStore} {s : RegistryInstance} {log : List RuntimeCapabilityRevision}
  {request : AssembleCapabilityRequest} {secrets : Option SecretBroker} {resolved : ResolvedEntry}
  {binding : AssembledCapabilityBinding}

/-- The entry a request resolves to is the one first applied under the id. -/
theorem RevisionStore.Remembers.first (h : store.Remembers log)
    (hresolved : resolveEntryForRequest store request = .ok resolved) :
    (firstApplied log resolved.revision.revisionId).bind
      (·.entryOf resolved.entry.deploymentId) = some resolved.entry := by
  have hdue : entryDue log request = some resolved.given := by
    rw [← h.resolves, hresolved]
    rfl
  obtain ⟨revision, hasked, hentry⟩ := Option.bind_eq_some_iff.mp hdue
  obtain ⟨entry, hentry, hgiven⟩ := Option.map_eq_some_iff.mp hentry
  obtain ⟨hid, rfl⟩ := Prod.mk.inj hgiven
  have hmem : revision ∈ log := by
    rw [revisionAsked] at hasked
    split at hasked
    · exact List.mem_of_find?_eq_some hasked
    · exact List.mem_of_getLast? hasked
  obtain ⟨first, hfirst, hentries⟩ := Option.map_eq_some_iff.mp (h.same revision hmem)
  have hdeployment : resolved.entry.deploymentId = request.deploymentId := by
    simpa using List.find?_some hentry
  rw [← hid, hfirst, Option.bind_some, hdeployment, hentries, hentry]

/-- **A binding of the entry asked for is the one that would be made.** -/
theorem BindsFirst.refreshed (hbinds : BindsFirst adapters log binding)
    (hfirst : (firstApplied log resolved.revision.revisionId).bind
      (·.entryOf resolved.entry.deploymentId) = some resolved.entry) {role : AssemblyRole}
    (hof : binding.IsOf role resolved) (lifecycle : ChannelLifecycleState) :
    { binding with channelLifecycle := lifecycle } =
      bindingOf adapters role resolved none lifecycle := by
  obtain ⟨_, kept, _, rfl, hkept⟩ := hbinds
  obtain ⟨hrole, hrevision, hdeployment, hside⟩ := hof
  simp only [bindingOf] at hrole hrevision hdeployment hside
  rw [hrevision, hdeployment, hfirst] at hkept
  have hentry := Option.some.inj hkept
  have hadapter : adapterOf adapters kept = adapterOf adapters resolved := by
    rw [adapterOf, adapterOf, hrevision, hentry]
  simp only [bindingOf, adapterKeyOf, adapterBindingRevisionOf, hadapter, hrole, hrevision, hside,
    ← hentry]

theorem BindsFirst.append (hbinds : BindsFirst adapters log binding)
    (revisions : List RuntimeCapabilityRevision) :
    BindsFirst adapters (log ++ revisions) binding := by
  obtain ⟨role, kept, lifecycle, hbinding, hfirst⟩ := hbinds
  refine ⟨role, kept, lifecycle, hbinding, ?_⟩
  obtain ⟨first, hfound, hentry⟩ := Option.bind_eq_some_iff.mp hfirst
  have hsome : firstApplied (log ++ revisions) kept.revision.revisionId = some first := by
    rw [firstApplied, List.find?_append]
    exact Option.or_eq_some_iff.mpr (.inl hfound)
  rw [hsome]
  exact hentry

/-! ### What each call leaves -/

@[simp] theorem liftHot_eq_ok {α : Type} {x : Except HotAssemblyError α} {a : α} :
    liftHot x = .ok a ↔ x = .ok a := by
  cases x <;> simp [liftHot]

@[simp] theorem liftHot_eq_error {α : Type} {x : Except HotAssemblyError α} {e : AssemblyError} :
    liftHot x = .error e ↔ ∃ error, x = .error error ∧ .hot error = e := by
  cases x <;> simp [liftHot]

theorem wp_applyRevision (revision : RuntimeCapabilityRevision) :
    Wp (applyCapabilityRevision revision) (store, s)
      (fun _ t => ∃ validated, projectCapabilityRevision revision = .ok validated ∧
        t.1 = store.set validated ∧ (t.2 = s ∨ t.2 = s.invalidateAssemblyCache))
      fun _ t => t = (store, s) := by
  rw [applyCapabilityRevision, wp_bind, wp_check]
  refine ⟨fun validated hok => ?_, fun _ _ => rfl⟩
  simp only [wp_bind, wp_get, wp_set, wp_pure]
  refine ⟨validated, liftHot_eq_ok.mp hok, rfl, ?_⟩
  split
  · exact .inr rfl
  · exact .inl rfl

theorem wp_onChannel (channelId clock : String) (call : ChannelCall) :
    Wp (onChannel channelId clock call) (store, s)
      (fun _ t => t.1 = store ∧
        (t.2.assemblyCache = s.assemblyCache ∨ t.2.assemblyCache = .empty))
      fun _ t => t = (store, s) := by
  rw [onChannel]
  simp only [wp_bind, wp_get]
  split
  · rw [wp_throw]
  · simp only [wp_bind, wp_set, wp_pure, true_and]
    split
    · exact .inr rfl
    · exact .inl rfl

/-- **What an assembly ends in**: the binding kept, refreshed, or the binding made. -/
theorem wp_assemble :
    Wp (assembleForRequest adapters request secrets) (store, s)
      (fun answer t => ∃ resolved, resolveEntryForRequest store request = .ok resolved ∧
        ((∃ binding, cachedBinding adapters s request resolved = some binding ∧ t = (store, s) ∧
            answer = { binding with channelLifecycle := lifecycleOf s resolved.entry }) ∨
          ∃ credential, cachedBinding adapters s request resolved = none ∧
            credentialOf secrets request resolved.entry = .ok credential ∧
            answer = bindingOf adapters (request.role.getD .primary) resolved credential
              (lifecycleOf s resolved.entry) ∧
            t = (store, keepBinding adapters s request resolved answer)))
      fun e t => t = (store, s) ∧
        ((∃ error, resolveEntryForRequest store request = .error error ∧ e = .hot error) ∨
          ∃ resolved, resolveEntryForRequest store request = .ok resolved ∧
            cachedBinding adapters s request resolved = none ∧
            credentialOf secrets request resolved.entry = .error e) := by
  rw [assembleForRequest]
  simp only [wp_bind, wp_get, wp_check, liftHot_eq_ok, liftHot_eq_error]
  constructor
  · intro resolved hresolved
    cases hcached : cachedBinding adapters s request resolved with
    | some binding =>
      rw [wp_pure]
      exact ⟨resolved, hresolved, .inl ⟨binding, hcached, rfl, rfl⟩⟩
    | none =>
      simp only [wp_bind, wp_check, wp_set, wp_pure]
      exact ⟨fun credential hcredential =>
          ⟨resolved, hresolved, .inr ⟨credential, hcached, hcredential, rfl, rfl⟩⟩,
        fun e he => ⟨trivial, .inr ⟨resolved, hresolved, hcached, he⟩⟩⟩
  · rintro _ ⟨error, herror, rfl⟩
    exact ⟨trivial, .inl ⟨error, herror, rfl⟩⟩

theorem account_of_cached (h : cachedBinding adapters s request resolved = some binding) :
    truthy resolved.entry.credentialAccountId = none ∧
      s.assemblyCache.get? (cacheKey adapters request resolved s.cacheGeneration) =
        some binding := by
  rw [cachedBinding] at h
  split at h
  · cases h
  · next hnone => exact ⟨by simpa using hnone, h⟩

/-- An entry with no account has no credential. -/
theorem credentialOf_of_no_account {entry : RuntimeCapabilityEntry}
    (h : truthy entry.credentialAccountId = none) :
    credentialOf secrets request entry = .ok none := by
  rw [credentialOf, h]
  rfl

/-- **The answer, where what is kept is what would be made.** -/
theorem answer_of_resolved (hresolved : resolveEntryForRequest h.store request = .ok resolved)
    (hcached : ∀ binding, cachedBinding adapters s request resolved = some binding →
      { binding with channelLifecycle := lifecycleOf s resolved.entry } =
        bindingOf adapters (request.role.getD .primary) resolved none
          (lifecycleOf s resolved.entry)) :
    h.answer adapters s request secrets = (credentialOf secrets request resolved.entry).map
      fun credential => bindingOf adapters (request.role.getD .primary) resolved credential
        (lifecycleOf s resolved.entry) := by
  obtain ⟨hok, herror⟩ := wp_iff_result.mp
    (@wp_assemble adapters h.store s request secrets)
  rw [HotSystem.answer]
  cases hanswer : result (assembleForRequest adapters request secrets) (h.store, s) with
  | ok answer =>
    obtain ⟨other, hother, hcase⟩ := hok answer hanswer
    obtain rfl := Except.ok.inj (hresolved.symm.trans hother)
    rcases hcase with ⟨binding, hsome, _, rfl⟩ | ⟨credential, _, hcredential, rfl, _⟩
    · rw [credentialOf_of_no_account (account_of_cached hsome).1, hcached binding hsome]
      rfl
    · rw [hcredential]
      rfl
  | error e =>
    obtain ⟨_, hcase⟩ := herror e hanswer
    rcases hcase with ⟨error, hrefused, _⟩ | ⟨other, hother, _, hcredential⟩
    · rw [hresolved] at hrefused
      cases hrefused
    · obtain rfl := Except.ok.inj (hresolved.symm.trans hother)
      rw [hcredential]
      rfl

theorem answer_of_refused {e : HotAssemblyError}
    (hrefused : resolveEntryForRequest h.store request = .error e) :
    h.answer adapters s request secrets = .error (.hot e) := by
  rw [HotSystem.answer, assembleForRequest]
  simp only [result, get_bind, hrefused, liftHot, check]
  rfl

/-- An answer out of the resolution and the credential is as it is due. -/
theorem answeredAsDue {lifecycle : RuntimeCapabilityEntry → ChannelLifecycleState}
    {answer : Except AssemblyError AssembledCapabilityBinding} (hremembers : store.Remembers log)
    (hok : ∀ resolved, resolveEntryForRequest store request = .ok resolved →
      answer = (credentialOf secrets request resolved.entry).map fun credential =>
        bindingOf adapters (request.role.getD .primary) resolved credential
          (lifecycle resolved.entry))
    (herror : ∀ e, resolveEntryForRequest store request = .error e → answer = .error (.hot e)) :
    AnsweredAsDue adapters lifecycle log store request secrets answer where
  due := hremembers.resolves request
  served binding hanswer := by
    cases hresolve : resolveEntryForRequest store request with
    | error e =>
      rw [herror e hresolve] at hanswer
      cases hanswer
    | ok resolved =>
      rw [hok resolved hresolve] at hanswer
      cases hcredential : credentialOf secrets request resolved.entry with
      | error e =>
        rw [hcredential] at hanswer
        cases hanswer
      | ok credential =>
        rw [hcredential] at hanswer
        exact ⟨resolved, credential, rfl, hcredential, (Except.ok.inj hanswer).symm⟩
  answered resolved credential hresolved hcredential := by
    rw [hok resolved hresolved, hcredential]
    rfl
  refused := herror

/-! ### Every call keeps the invariant -/

theorem next_of_wp {I : HotSystem → Prop}
    (hwp : Wp (HotSystem.perform adapters step.2) (h.store, h.instances step.1)
      (fun _ t => I ⟨t.1, Function.update h.instances step.1 t.2, h.applied ++ step.2.revisions⟩)
      fun _ t => I ⟨t.1, Function.update h.instances step.1 t.2, h.applied⟩) :
    I (h.next adapters step) := by
  rw [HotSystem.next]
  unfold Wp at hwp
  split <;> next heq => rw [heq] at hwp; exact hwp

/-- An instance that keeps no more than it kept, or a binding that is of the log. -/
theorem HotInvariant.write (hinv : HotInvariant adapters h)
    {i : Nat} (hcached : ∀ key binding, s.assemblyCache.get? key = some binding →
      (h.instances i).assemblyCache.get? key = some binding ∨
        BindsFirst adapters h.applied binding) :
    HotInvariant adapters ⟨h.store, Function.update h.instances i s, h.applied⟩ where
  remembers := hinv.remembers
  cached j key binding hkept := by
    dsimp only at hkept
    by_cases hj : j = i
    · rw [hj, Function.update_self] at hkept
      exact (hcached key binding hkept).elim (hinv.cached i key binding) id
    · rw [Function.update_of_ne hj] at hkept
      exact hinv.cached j key binding hkept

theorem HotInvariant.unchanged (hinv : HotInvariant adapters h) (i : Nat) :
    HotInvariant adapters ⟨h.store, Function.update h.instances i (h.instances i), h.applied⟩ := by
  rwa [Function.update_eq_self]

theorem HotInvariant.apply (hinv : HotInvariant adapters h)
    {validated : RuntimeCapabilityRevision}
    (hsame : ∀ first, firstApplied h.applied validated.revisionId = some first →
      validated.entryOf = first.entryOf) :
    HotInvariant adapters ⟨h.store.set validated, h.instances, h.applied ++ [validated]⟩ where
  remembers := hinv.remembers.set hsame
  cached i key binding hkept := (hinv.cached i key binding hkept).append _

theorem kept_of_keepBinding {role : AssemblyRole} {credential : Option AssembledCredential}
    {lifecycle : ChannelLifecycleState} (hremembers : store.Remembers log)
    (hresolved : resolveEntryForRequest store request = .ok resolved)
    (hcredential : credentialOf secrets request resolved.entry = .ok credential) {key : String}
    (hkept : (keepBinding adapters s request resolved
      (bindingOf adapters role resolved credential lifecycle)).assemblyCache.get? key =
        some binding) :
    s.assemblyCache.get? key = some binding ∨ BindsFirst adapters log binding := by
  rw [keepBinding] at hkept
  split at hkept
  · next hkeeps =>
    simp only [OrderedMap.get?_set] at hkept
    split at hkept
    · rw [credentialOf_of_no_account hkeeps.2] at hcredential
      obtain rfl := Except.ok.inj hcredential
      exact .inr ⟨role, resolved, lifecycle, (Option.some.inj hkept).symm,
        hremembers.first hresolved⟩
    · exact .inl hkept
  · exact .inl hkept

theorem hotInvariant_next (hinv : HotInvariant adapters h)
    (hmet : GivesNoOtherEntries h.applied step.2) :
    HotInvariant adapters (h.next adapters step) := by
  refine next_of_wp ?_
  obtain ⟨i, call⟩ := step
  cases call with
  | applyCapabilityRevision revision =>
    refine (wp_map _).mpr ((wp_applyRevision revision).mono ?_ ?_)
    · rintro _ ⟨_, s⟩ ⟨validated, hproject, rfl, hs⟩
      have happly := hinv.apply (hmet revision validated · rfl hproject)
      have hrevisions : (HotCall.applyCapabilityRevision revision).revisions = [validated] := by
        rw [HotCall.revisions, hproject]
        rfl
      simp only [hrevisions]
      refine happly.write fun key binding hkept => ?_
      rcases hs with rfl | rfl
      · exact .inl hkept
      · rw [RegistryInstance.invalidateAssemblyCache, OrderedMap.get?_empty] at hkept
        cases hkept
    · rintro _ _ rfl
      exact hinv.unchanged i
  | onChannel channelId clock call =>
    refine (wp_map _).mpr ((wp_onChannel channelId clock call).mono ?_ ?_)
    · rintro _ ⟨_, s⟩ ⟨rfl, hs⟩
      simp only [HotCall.revisions, List.append_nil]
      refine hinv.write fun key binding hkept => ?_
      rcases hs with hs | hs
      · exact .inl (hs ▸ hkept)
      · rw [hs, OrderedMap.get?_empty] at hkept
        cases hkept
    · rintro _ _ rfl
      exact hinv.unchanged i
  | assembleForRequest request secrets =>
    refine (wp_map _).mpr (wp_assemble.mono ?_ ?_)
    · rintro answer ⟨_, s⟩ ⟨resolved, hresolved, hcase⟩
      simp only [HotCall.revisions, List.append_nil]
      rcases hcase with ⟨_, _, ht, _⟩ | ⟨credential, _, hcredential, rfl, ht⟩
      · obtain ⟨rfl, rfl⟩ := Prod.mk.inj ht
        exact hinv.unchanged i
      · obtain ⟨rfl, rfl⟩ := Prod.mk.inj ht
        exact hinv.write fun key binding hkept =>
          kept_of_keepBinding hinv.remembers hresolved hcredential hkept
    · rintro _ ⟨_, s⟩ ⟨ht, _⟩
      obtain ⟨rfl, rfl⟩ := Prod.mk.inj ht
      exact hinv.unchanged i

theorem cachedBinding_of_empty (hempty : s.assemblyCache = .empty) :
    cachedBinding adapters s request resolved = none := by
  rw [cachedBinding, hempty, OrderedMap.get?_empty, ite_self]

/-- **One call** that meets the condition. -/
theorem hotLaw_step (hinv : HotInvariant adapters h) (hmet : HotMet adapters h step) :
    HotInvariant adapters (h.next adapters step) ∧ HotLaw adapters h step := by
  have hcached : ∀ request secrets resolved, step.2 = .assembleForRequest request secrets →
      resolveEntryForRequest h.store request = .ok resolved → ∀ binding,
      cachedBinding adapters (h.instances step.1) request resolved = some binding →
        { binding with channelLifecycle := lifecycleOf (h.instances step.1) resolved.entry } =
          bindingOf adapters (request.role.getD .primary) resolved none
            (lifecycleOf (h.instances step.1) resolved.entry) :=
    fun request secrets resolved hcall hresolved binding hsome =>
      (hinv.cached _ _ _ (account_of_cached hsome).2).refreshed
        (hinv.remembers.first hresolved)
        (hmet.2 request secrets resolved binding hcall hresolved hsome) _
  refine ⟨hotInvariant_next hinv hmet.1, ⟨fun request secrets hcall => ?_,
    fun request secrets hcall => ?_⟩⟩
  · exact answeredAsDue hinv.remembers (fun resolved hresolved =>
      answer_of_resolved hresolved (hcached request secrets resolved hcall hresolved))
      fun e => answer_of_refused
  · cases hresolve : resolveEntryForRequest h.store request with
    | error e => rw [answer_of_refused hresolve, answer_of_refused hresolve]
    | ok resolved =>
      have hnone : ∀ binding, cachedBinding adapters
          { h.instances step.1 with assemblyCache := .empty } request resolved = some binding →
            False := fun binding hsome => by
        rw [cachedBinding_of_empty rfl] at hsome
        cases hsome
      rw [answer_of_resolved hresolve (hcached request secrets resolved hcall hresolve),
        answer_of_resolved hresolve fun binding hsome => (hnone binding hsome).elim]
      rfl

theorem hotInvariant_initial : HotInvariant adapters {} where
  remembers := ⟨rfl, fun _ _ hget => by simp at hget, fun _ => rfl, fun _ hmem => by simp at hmem⟩
  cached _ _ _ hget := by simp at hget

end Instances

/-! ## The rows in Postgres -/

structure RowsHistory where
  rows : CapabilityRows := {}
  applied : List RuntimeCapabilityRevision := []

/-- A call, and the clock at it. -/
abbrev RowsStep := String × HotCall

section Rows

open PostgresSupplyControlPlaneRepository PostgresCapabilityHotAssemblyPort

variable (adapters : Option AdapterBindingDirectory)

def RowsHistory.perform (clock : String) : HotCall → Port Unit
  | .applyCapabilityRevision revision => (fun _ => ()) <$> applyCapabilityRevision revision
  | .onChannel channelId clock call => (fun _ => ()) <$> onChannel channelId clock call
  | .assembleForRequest request secrets =>
    (fun _ => ()) <$> assembleForRequest adapters clock request secrets

def RowsHistory.next (h : RowsHistory) (step : RowsStep) : RowsHistory :=
  match RowsHistory.perform adapters step.1 step.2 h.rows with
  | .ok _ rows => ⟨rows, h.applied ++ step.2.revisions⟩
  | .error _ rows => ⟨rows, h.applied⟩

/-- **What the next call does.** -/
structure RowsLaw (h : RowsHistory) (step : RowsStep) : Prop where
  /-- a request gets the entry first applied under its id, or that of the head -/
  served : ∀ request secrets, step.2 = .assembleForRequest request secrets →
    AnsweredAsDue (some (adapters.getD (rowsDirectory h.rows)))
      (CapabilityHotAssemblyRegistry.lifecycleOf (runtimeRegistry h.rows step.1 request).2)
      h.applied (runtimeStore h.rows) request secrets
      (result (assembleForRequest adapters step.1 request secrets) h.rows)
  /-- a registry is built with nothing kept -/
  invisible : ∀ request, (runtimeRegistry h.rows step.1 request).2.assemblyCache = .empty
  /-- an id keeps its content -/
  rejected : ∀ revision validated first, step.2 = .applyCapabilityRevision revision →
    projectCapabilityRevision revision = .ok validated →
    firstApplied h.applied validated.revisionId = some first → first ≠ validated →
      (∃ e, result (applyCapabilityRevision revision) h.rows = .error e) ∧
        (h.next adapters step).rows = h.rows

/-- **What holds of the rows**: each id has the revision it was applied with. -/
structure RowsInvariant (h : RowsHistory) : Prop where
  revisions : ∀ id, h.rows.revisions.get? id = firstApplied h.applied id
  head : h.rows.head = h.applied.getLast?.map (·.revisionId)
  same : ∀ revision ∈ h.applied, firstApplied h.applied revision.revisionId = some revision

variable {adapters} {h : RowsHistory} {step : RowsStep} {rows : CapabilityRows}
  {log : List RuntimeCapabilityRevision}

theorem RowsInvariant.effective (hinv : RowsInvariant h) :
    getEffectiveCapabilityRevision h.rows = h.applied.getLast? := by
  rw [getEffectiveCapabilityRevision, hinv.head]
  cases hlast : h.applied.getLast? with
  | none => rfl
  | some head =>
    exact (hinv.revisions _).trans (hinv.same head (List.mem_of_getLast? hlast))

/-- The revisions of a store that is filled from a list. -/
theorem history_foldl {listed : List RuntimeCapabilityRevision} :
    (listed.map (·.revisionId)).Nodup → ∀ (store : RevisionStore) (id : String),
      (listed.foldl RevisionStore.set store).history.get? id =
        (listed.find? (·.revisionId = id)).or (store.history.get? id) := by
  induction listed with
  | nil => exact fun _ _ _ => rfl
  | cons revision listed ih =>
    intro hnodup store id
    obtain ⟨hfresh, hnodup⟩ := List.nodup_cons.mp hnodup
    rw [List.foldl_cons, ih hnodup, RevisionStore.set, OrderedMap.get?_set, List.find?_cons]
    by_cases hid : revision.revisionId = id
    · have hnone : listed.find? (·.revisionId = id) = none :=
        List.find?_eq_none.mpr fun other hother hother' => hfresh
          (List.mem_map.mpr ⟨other, hother, (of_decide_eq_true hother').trans hid.symm⟩)
      rw [hnone, if_pos hid.symm]
      simp [hid]
    · rw [if_neg (Ne.symm hid)]
      simp [hid]

/-- **The store that is built remembers what was applied.** -/
theorem RowsInvariant.remembers (hinv : RowsInvariant h) :
    (runtimeStore h.rows).Remembers h.applied := by
  have hkeyed : ∀ id revision, h.rows.revisions.get? id = some revision →
      revision.revisionId = id := fun id revision hget =>
    revisionId_of_firstApplied ((hinv.revisions id).symm.trans hget)
  have hperm : (listCapabilityRevisions h.rows).Perm h.rows.revisions.values :=
    List.perm_insertionSort _ _
  have hlisted : ∀ id, ((listCapabilityRevisions h.rows).foldl RevisionStore.set {}).history.get? id
      = firstApplied h.applied id := fun id => by
    rw [history_foldl (nodup_listed hkeyed hperm), find?_listed hkeyed hperm, hinv.revisions]
    exact Option.or_none
  have hhistory : ∀ id, (runtimeStore h.rows).history.get? id = firstApplied h.applied id := by
    intro id
    rw [runtimeStore, hinv.effective]
    cases hlast : h.applied.getLast? with
    | none => exact hlisted id
    | some head =>
      change OrderedMap.get? (OrderedMap.set _ head.revisionId head) id = _
      rw [OrderedMap.get?_set]
      split
      · next heq => rw [heq, hinv.same head (List.mem_of_getLast? hlast)]
      · exact hlisted id
  refine ⟨?_, fun id revision hget => ?_, fun id => by rw [hhistory], fun revision hmem => by
    rw [hinv.same revision hmem]; rfl⟩
  · rw [runtimeStore, hinv.effective]
    cases hlast : h.applied.getLast? with
    | some head => rfl
    | none =>
      have hempty : h.rows.revisions.values = [] := by
        refine List.eq_nil_iff_forall_not_mem.mpr fun revision hmem => ?_
        obtain ⟨id, hget⟩ := OrderedMap.mem_values.mp hmem
        rw [hinv.revisions, List.getLast?_eq_none_iff.mp hlast] at hget
        cases hget
      rw [hempty] at hperm
      rw [List.perm_nil.mp hperm]
      rfl
  · exact revisionId_of_firstApplied ((hhistory id).symm.trans hget)

/-- An operation that only checks what it reads. -/
theorem result_reads {ε σ α : Type} (f : σ → Except ε α) (s : σ) :
    result (do check (f (← get)) : EStateM ε σ α) s = f s := by
  rw [result, get_bind]
  cases f s <;> rfl

theorem wp_ofRows {α : Type} {x : PostgresSupplyControlPlaneRepository.Rows α}
    {Q : α → CapabilityRows → Prop} {E : AssemblyError → CapabilityRows → Prop} :
    Wp (ofRows x) rows Q E ↔ Wp x rows Q fun e => E (.thrown e) := by
  unfold Wp ofRows
  cases x rows <;> rfl

/-- **A revision is written under an id that is new**, or that has this content. -/
theorem wp_setEffective (revision : RuntimeCapabilityRevision) (expected : Option String) :
    Wp (setEffectiveCapabilityRevision revision expected) rows
      (fun _ rows' => (∀ first, rows.revisions.get? revision.revisionId = some first →
          first = revision) ∧
        rows' = { rows with
          revisions := rows.revisions.set revision.revisionId revision
          head := some revision.revisionId })
      fun _ rows' => rows' = rows := by
  rw [setEffectiveCapabilityRevision, wp_transaction]
  simp only [setHead, wp_bind, wp_get, wp_ite, wp_set, wp_throw, implies_true, and_true]
  intro hall _
  exact fun first hfirst => by simpa [hfirst] using hall

theorem wp_applyRows (revision : RuntimeCapabilityRevision) :
    Wp (PostgresCapabilityHotAssemblyPort.applyCapabilityRevision revision) rows
      (fun _ rows' => ∃ validated, projectCapabilityRevision revision = .ok validated ∧
        (∀ first, rows.revisions.get? validated.revisionId = some first → first = validated) ∧
        rows' = { rows with
          revisions := rows.revisions.set validated.revisionId validated
          head := some validated.revisionId })
      fun _ rows' => rows' = rows := by
  rw [PostgresCapabilityHotAssemblyPort.applyCapabilityRevision, wp_bind, wp_check]
  refine ⟨fun validated hok => ?_, fun _ _ => rfl⟩
  simp only [wp_bind, wp_get, wp_ofRows, wp_pure]
  refine (wp_setEffective validated _).mono (fun _ rows' hset => ?_) fun _ _ hsame => hsame
  exact ⟨validated, liftHot_eq_ok.mp hok, hset.1, hset.2⟩

/-- What a call on a channel or an assembly leaves of the revisions. -/
theorem wp_otherRows {clock : String} {call : HotCall}
    (hcall : ∀ revision, call ≠ .applyCapabilityRevision revision) :
    Keeps (fun rows' => rows'.revisions = rows.revisions ∧ rows'.head = rows.head)
      (RowsHistory.perform adapters clock call) rows := by
  cases call with
  | applyCapabilityRevision revision => exact absurd rfl (hcall revision)
  | onChannel channelId clock call =>
    refine (wp_map _).mpr ?_
    rw [PostgresCapabilityHotAssemblyPort.onChannel]
    simp only [wp_bind, wp_get]
    split
    · exact (wp_throw _).mpr ⟨rfl, rfl⟩
    · simp only [wp_bind, wp_set, wp_pure]
      exact ⟨trivial, trivial⟩
  | assembleForRequest request secrets =>
    refine (wp_map _).mpr ?_
    rw [PostgresCapabilityHotAssemblyPort.assembleForRequest]
    simp only [wp_bind, wp_get, wp_check]
    exact ⟨fun _ _ => ⟨trivial, trivial⟩, fun _ _ => ⟨trivial, trivial⟩⟩

theorem rows_next_of_wp {I : RowsHistory → Prop}
    (hwp : Wp (RowsHistory.perform adapters step.1 step.2) h.rows
      (fun _ rows => I ⟨rows, h.applied ++ step.2.revisions⟩) fun _ rows => I ⟨rows, h.applied⟩) :
    I (h.next adapters step) := by
  rw [RowsHistory.next]
  unfold Wp at hwp
  split <;> next heq => rw [heq] at hwp; exact hwp

theorem RowsInvariant.apply (hinv : RowsInvariant h) {validated : RuntimeCapabilityRevision}
    (hsame : ∀ first, h.rows.revisions.get? validated.revisionId = some first →
      first = validated) :
    RowsInvariant ⟨{ h.rows with
      revisions := h.rows.revisions.set validated.revisionId validated
      head := some validated.revisionId }, h.applied ++ [validated]⟩ where
  revisions id := by
    rw [OrderedMap.get?_set, firstApplied_append]
    split
    · next heq =>
      subst heq
      cases hfirst : firstApplied h.applied validated.revisionId with
      | none => simp
      | some first => simp [hsame first ((hinv.revisions _).trans hfirst)]
    · next hne => rw [if_neg (Ne.symm hne), Option.or_none, hinv.revisions]
  head := by rw [List.getLast?_concat]; rfl
  same kept hkept := by
    rw [firstApplied_append]
    rcases List.mem_append.mp hkept with hbefore | hlast
    · rw [hinv.same kept hbefore, Option.some_or]
    · obtain rfl := List.mem_singleton.mp hlast
      cases hfirst : firstApplied h.applied kept.revisionId with
      | none => simp
      | some first => simp [hsame first ((hinv.revisions _).trans hfirst)]

theorem rowsInvariant_next (hinv : RowsInvariant h) : RowsInvariant (h.next adapters step) := by
  refine rows_next_of_wp ?_
  by_cases hcall : ∃ revision, step.2 = .applyCapabilityRevision revision
  · obtain ⟨revision, hcall⟩ := hcall
    rw [hcall]
    refine (wp_map _).mpr ((wp_applyRows revision).mono ?_ ?_)
    · rintro _ _ ⟨validated, hproject, hsame, rfl⟩
      have hrevisions : (HotCall.applyCapabilityRevision revision).revisions = [validated] := by
        rw [HotCall.revisions, hproject]
        rfl
      rw [hrevisions]
      exact hinv.apply hsame
    · rintro _ _ rfl
      exact hinv
  · have hother : ∀ revision, step.2 ≠ .applyCapabilityRevision revision :=
      fun revision heq => hcall ⟨revision, heq⟩
    have hrevisions : step.2.revisions = [] := by
      cases hstep : step.2 with
      | applyCapabilityRevision revision => exact absurd hstep (hother revision)
      | onChannel _ _ _ => rfl
      | assembleForRequest _ _ => rfl
    have hkept : ∀ rows' : CapabilityRows, rows'.revisions = h.rows.revisions ∧
        rows'.head = h.rows.head → RowsInvariant ⟨rows', h.applied⟩ := fun rows' hsame =>
      ⟨fun id => hsame.1 ▸ hinv.revisions id, hsame.2.trans hinv.head, hinv.same⟩
    rw [hrevisions, List.append_nil]
    exact (wp_otherRows hother).mono (fun _ => hkept) fun _ => hkept

/-- **One call on the rows.** -/
theorem rowsLaw_step (hinv : RowsInvariant h) :
    RowsInvariant (h.next adapters step) ∧ RowsLaw adapters h step := by
  refine ⟨rowsInvariant_next hinv, fun request secrets hcall => ?_, fun _ => rfl,
    fun revision validated first hcall hproject hfirst hne => ?_⟩
  · have hanswer : result (assembleForRequest adapters step.1 request secrets) h.rows =
        HotSystem.answer (some (adapters.getD (rowsDirectory h.rows)))
          { store := runtimeStore h.rows } (runtimeRegistry h.rows step.1 request).2 request
          secrets := by
      have hbuilt : runtimeRegistry h.rows step.1 request =
          (runtimeStore h.rows, (runtimeRegistry h.rows step.1 request).2) := rfl
      rw [PostgresCapabilityHotAssemblyPort.assembleForRequest, result_reads]
      exact congrArg (result _) hbuilt
    rw [hanswer]
    refine answeredAsDue hinv.remembers (fun resolved hresolved =>
      answer_of_resolved hresolved fun binding hsome => ?_)
      fun e => answer_of_refused (h := { store := runtimeStore h.rows })
    rw [cachedBinding_of_empty rfl] at hsome
    cases hsome
  · have hthrows : Wp (applyCapabilityRevision revision) h.rows (fun _ _ => False)
        fun _ rows' => rows' = h.rows := by
      refine (wp_applyRows revision).mono ?_ fun _ _ hsame => hsame
      rintro _ _ ⟨other, hother, hsame, _⟩
      obtain rfl := Except.ok.inj (hproject.symm.trans hother)
      exact hne (hsame first ((hinv.revisions _).trans hfirst))
    obtain ⟨hok, herror⟩ := wp_iff_result.mp hthrows
    constructor
    · cases hresult : result (applyCapabilityRevision revision) h.rows with
      | ok answer => exact (hok answer hresult).elim
      | error e => exact ⟨e, rfl⟩
    · refine rows_next_of_wp (I := fun next => next.rows = h.rows) ?_
      rw [hcall]
      exact (wp_map _).mpr (hthrows.mono (fun _ _ hfalse => hfalse.elim) fun _ _ hsame => hsame)

theorem rowsInvariant_initial : RowsInvariant {} where
  revisions _ := rfl
  head := rfl
  same _ hmem := by simp at hmem

end Rows

/-- **A frozen capability is never upgraded and the cache is invisible**: on instances that share
one store, in every run that gives no id a second content and finds no binding but its own, and on
the rows in every run. -/
theorem frozenCapabilities (adapters : Option AdapterBindingDirectory) :
    (∀ steps, Admits (HotSystem.next adapters) (HotMet adapters) steps {} →
      Admits (HotSystem.next adapters) (HotLaw adapters) steps {}) ∧
    ∀ steps, Admits (RowsHistory.next adapters) (RowsLaw adapters) steps {} := by
  refine ⟨fun steps hmet =>
    Admits.beside (HotInvariant adapters) (fun _ _ => hotLaw_step) hotInvariant_initial hmet,
    fun steps => ?_⟩
  have hany : Admits (RowsHistory.next adapters) (fun _ _ => True) steps {} :=
    admits_of_forall fun _ _ _ => trivial
  exact hany.beside RowsInvariant (fun _ _ hinv _ => rowsLaw_step hinv) rowsInvariant_initial

/-! ## Runs that meet the condition, and runs that do not -/

def chatEntry (deploymentId adapterKey : String) : RuntimeCapabilityEntry where
  deploymentId := deploymentId
  catalogModelId := "model"
  apiFamily := "chat"
  channel := "direct"
  region := "region"
  adapterKey := adapterKey

def chatRevision (revisionId : String) (number : Int) (deploymentId adapterKey : String) :
    RuntimeCapabilityRevision where
  revisionId := revisionId
  number := number
  entries := [chatEntry deploymentId adapterKey]
  publishedAt := "t0"

def chatRequest (deploymentId : String) (frozenCapabilityRevisionId : Option String) :
    AssembleCapabilityRequest where
  deploymentId := deploymentId
  frozenCapabilityRevisionId := frozenCapabilityRevisionId
  requiredScope := .platform

instance (binding : AssembledCapabilityBinding) (role : AssemblyRole) (resolved : ResolvedEntry) :
    Decidable (binding.IsOf role resolved) := inferInstanceAs (Decidable (_ ∧ _ ∧ _ ∧ _))

/-- A revision of a new id may be applied. -/
theorem met_apply {adapters : Option AdapterBindingDirectory} {h : HotSystem} {i : Nat}
    {revision : RuntimeCapabilityRevision}
    (hnew : firstApplied h.applied revision.revisionId = none) :
    HotMet adapters h (i, .applyCapabilityRevision revision) := by
  refine ⟨fun other validated first hcall hproject hfirst => ?_,
    fun _ _ _ _ hcall _ => by cases hcall⟩
  obtain rfl := HotCall.applyCapabilityRevision.inj hcall
  have hid : validated.revisionId = revision.revisionId := by
    rw [projectCapabilityRevision] at hproject
    split at hproject
    · cases hproject
    · split at hproject
      · cases hproject
      · split at hproject <;> cases hproject
        rfl
  rw [hid, hnew] at hfirst
  cases hfirst

theorem met_assemble {adapters : Option AdapterBindingDirectory} {h : HotSystem} {i : Nat}
    {request : AssembleCapabilityRequest} {secrets : Option SecretBroker}
    (hfound : (resolveEntryForRequest h.store request).toOption.all fun resolved =>
      (CapabilityHotAssemblyRegistry.cachedBinding adapters (h.instances i) request resolved).all
        fun binding => binding.IsOf (request.role.getD .primary) resolved) :
    HotMet adapters h (i, .assembleForRequest request secrets) := by
  refine ⟨fun _ _ _ hcall _ => (by cases hcall),
    fun other _ resolved binding hcall hresolved hcached => ?_⟩
  obtain ⟨rfl, _⟩ := HotCall.assembleForRequest.inj hcall
  rw [hresolved] at hfound
  have hall : ((CapabilityHotAssemblyRegistry.cachedBinding adapters (h.instances i) request
      resolved).all fun binding => binding.IsOf (request.role.getD .primary) resolved) = true :=
    hfound
  rw [hcached] at hall
  exact of_decide_eq_true hall

/-- A binding is kept and found again; another revision is applied, and the first is still asked
for. -/
theorem frozenCapabilities_replaced :
    Admits (HotSystem.next none) (HotLaw none)
      [(0, .applyCapabilityRevision (chatRevision "r1" 1 "d" "old")),
        (0, .assembleForRequest (chatRequest "d" none) none),
        (0, .assembleForRequest (chatRequest "d" none) none),
        (0, .applyCapabilityRevision (chatRevision "r2" 2 "d" "new")),
        (0, .assembleForRequest (chatRequest "d" (some "r1")) none)] {} :=
  (frozenCapabilities none).1 _ ⟨met_apply rfl, met_assemble (by decide +kernel),
    met_assemble (by decide +kernel), met_apply (by decide +kernel),
    met_assemble (by decide +kernel), trivial⟩

/-- **A revision applied again under its id takes the place of the first**, a binding kept while its
revision was the head is found after another instance moved the head, and **two deployments share
one joined text**. -/
theorem not_frozenCapabilities :
    ¬ Admits (HotSystem.next none) (HotLaw none)
      [(0, .applyCapabilityRevision (chatRevision "r1" 1 "d" "old")),
        (0, .applyCapabilityRevision (chatRevision "r1" 1 "d" "new")),
        (0, .assembleForRequest (chatRequest "d" (some "r1")) none)] {} ∧
    ¬ Admits (HotSystem.next none) (HotLaw none)
      [(0, .applyCapabilityRevision (chatRevision "r1" 1 "d" "old")),
        (0, .assembleForRequest (chatRequest "d" none) none),
        (1, .applyCapabilityRevision (chatRevision "r2" 2 "d" "new")),
        (0, .assembleForRequest (chatRequest "d" (some "r1")) none)] {} ∧
    ¬ Admits (HotSystem.next none) (HotLaw none)
      [(0, .applyCapabilityRevision (chatRevision "a" 1 "b::c" "key")),
        (0, .applyCapabilityRevision (chatRevision "a::b" 2 "c" "key")),
        (0, .assembleForRequest (chatRequest "b::c" (some "a")) none),
        (0, .assembleForRequest (chatRequest "c" none) none)] {} := by
  refine ⟨?_, ?_, ?_⟩
  · rintro ⟨_, _, hlaw, _⟩
    exact absurd (hlaw.served _ _ rfl).due (by decide +kernel)
  · rintro ⟨_, _, _, hlaw, _⟩
    exact absurd (hlaw.invisible _ _ rfl) (by decide +kernel)
  · rintro ⟨_, _, _, hlaw, _⟩
    exact absurd (hlaw.invisible _ _ rfl) (by decide +kernel)

end MeiyeAgent
