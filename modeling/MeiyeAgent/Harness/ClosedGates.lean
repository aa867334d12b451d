import Mathlib.Data.Multiset.Basic
import MeiyeAgent.Harness.GateVerdicts

/-!
# Harness/ClosedGates — a candidate that passes is authorized

Where references under one key agree, dates can be read, and no other of the ways is taken in which
a gate stays open (`PolicyTold`), a candidate that passes is authorized, the order of the lists is
not seen, and a reference that denies lets nothing pass (`policyHolds`).  A verdict is then about
the members of the lists (`Grounded`), and so is the condition.
-/

namespace MeiyeAgent

/-! ## What a candidate that passes has to be -/

section Law

variable (host : PolicyHost)

/-- **A source is current**, and not expired at an instant that can be read. -/
structure PolicySourceRef.CurrentAt (source : PolicySourceRef) (evaluatedAt : Option String) :
    Prop where
  status : source.status = .current
  unexpired : ∀ expiresAt, source.expiresAt = some expiresAt →
    ∃ instant, evaluatedAt.bind host.dateParse = some instant ∧
      ∃ expiry, host.dateParse expiresAt = some expiry ∧ instant < expiry

/-- What a claim names is a source that is listed and current. -/
def HarnessPolicyInput.Sourced (input : HarnessPolicyInput) (sourceRef : Option String) : Prop :=
  ∃ id, truthy sourceRef = some id ∧
    ∃ source ∈ input.sourceRefs, source.id = id ∧ source.CurrentAt host input.evaluatedAt

/-- **A trusted claim backs one that was found**: it is of a compatible kind, and states all of its
numbers or, where there are none, shares text with it. -/
structure HarnessFactClaim.Backs (trusted claim : HarnessFactClaim) : Prop where
  kinds : compatibleKinds trusted.kind claim.kind = true
  numbers : ∀ number ∈ comparableNumericValues host claim.value,
    number ∈ trustedNumericValues host trusted.value
  text : comparableNumericValues host claim.value = [] → ∃ shared, shared ≠ [] ∧
    shared <:+: normalizeClaimValue host trusted.value ∧
      shared <:+: normalizeClaimValue host claim.value ∧
      (shared = normalizeClaimValue host trusted.value ∨
        shared = normalizeClaimValue host claim.value)

/-- The kind of action that has to be approved in a phase. -/
def HarnessPolicyPhase.approvedKind : HarnessPolicyPhase → Option ExternalActionKind
  | .publish => some .publish
  | .paid_action => some .paid_action
  | .execution => none
  | .delivery => none
  | .export_ => none

/-- **A candidate is authorized.** -/
structure HarnessPolicyInput.Authorized (input : HarnessPolicyInput) : Prop where
  candidate : input.candidate.workspaceId = input.workspaceId
  sources : ∀ source ∈ input.sourceRefs, source.workspaceId = input.workspaceId
  rightsOwned : ∀ rights ∈ input.rightsRefs, rights.workspaceId = input.workspaceId
  identities : ∀ identity ∈ input.identityRefs, identity.workspaceId = input.workspaceId
  declared : ∀ claim ∈ input.candidate.factClaims, claim.kind ≠ .other →
    input.Sourced host claim.sourceRef
  visible : input.phase ≠ .execution →
    ∀ claim ∈ (extractVisibleClaims host input.candidate.visibleText).claims,
      ∃ trusted ∈ input.trustedFactClaims,
        (groundedClaim host input.trustedFactClaims claim).sourceRef = truthy trusted.sourceRef ∧
          trusted.Backs host (claim.toFactClaim none) ∧ input.Sourced host trusted.sourceRef
  rights : ∀ assetId ∈ input.candidate.assetRefs, ∀ rights ∈ input.rightsRefs,
    rights.assetId = assetId → rights.allows input.candidate.intendedUse = true
  approved : ∀ kind, input.phase.approvedKind = some kind → ∃ action receipt,
    input.actionContext = some action ∧ input.approvalReceipt = some receipt ∧
      receipt.status = .approved ∧ receipt.actionKind = kind ∧ receipt.target = action.target ∧
        some receipt.revision = input.currentRevision

/-- A rights reference, whatever the order of its uses. -/
def PolicyRightsRef.unordered (rights : PolicyRightsRef) :
    String × String × PolicyRightsStatus × Multiset IntendedUse :=
  (rights.assetId, rights.workspaceId, rights.status, rights.allowedUses)

/-- **The lists in another order**, and the uses of the rights with them. -/
structure Reordered (input other : HarnessPolicyInput) : Prop where
  phase : other.phase = input.phase
  evaluatedAt : other.evaluatedAt = input.evaluatedAt
  workspaceId : other.workspaceId = input.workspaceId
  candidate : other.candidate.workspaceId = input.candidate.workspaceId
  intendedUse : other.candidate.intendedUse = input.candidate.intendedUse
  expressionIdentityRef :
    other.candidate.expressionIdentityRef = input.candidate.expressionIdentityRef
  actionContext : other.actionContext = input.actionContext
  approvalReceipt : other.approvalReceipt = input.approvalReceipt
  currentRevision : other.currentRevision = input.currentRevision
  factClaims : other.candidate.factClaims.Perm input.candidate.factClaims
  assetRefs : other.candidate.assetRefs.Perm input.candidate.assetRefs
  visibleText : other.candidate.visibleText.Perm input.candidate.visibleText
  trustedFactClaims : other.trustedFactClaims.Perm input.trustedFactClaims
  sourceRefs : other.sourceRefs.Perm input.sourceRefs
  rightsRefs : (other.rightsRefs.map (·.unordered)).Perm (input.rightsRefs.map (·.unordered))
  identityRefs : other.identityRefs.Perm input.identityRefs
  sensitiveLexicon : other.sensitiveLexicon.Perm input.sensitiveLexicon

/-- **One more reference that denies**: a source that is out of date, rights that do not allow the
use, or an identity that is not registered. -/
inductive AddsDenial (input : HarnessPolicyInput) : HarnessPolicyInput → Prop
  | source {before after : List PolicySourceRef} {source : PolicySourceRef} :
    input.sourceRefs = before ++ after → source.staleAt host input.evaluatedAt = true →
      AddsDenial input { input with sourceRefs := before ++ source :: after }
  | rights {before after : List PolicyRightsRef} {rights : PolicyRightsRef} :
    input.rightsRefs = before ++ after → rights.allows input.candidate.intendedUse = false →
      AddsDenial input { input with rightsRefs := before ++ rights :: after }
  | identity {before after : List PolicyIdentityRef} {identity : PolicyIdentityRef} :
    input.identityRefs = before ++ after → identity.status ≠ .registered →
      AddsDenial input { input with identityRefs := before ++ identity :: after }

/-- **The gates fail closed** on an input. -/
structure PolicyHolds (input : HarnessPolicyInput) : Prop where
  authorized : input.Passes host → input.Authorized host
  unordered : ∀ other, Reordered input other → (other.Passes host ↔ input.Passes host)
  denied : ∀ other, AddsDenial host input other → other.Passes host → input.Passes host

/-! ## The condition -/

/-- A claim of a kind names a source: one that is declared, or one that is found, where a trusted
claim that supports it names it. -/
def HarnessPolicyInput.Names (input : HarnessPolicyInput) (kind : FactClaimKind) (id : String) :
    Prop :=
  (∃ claim ∈ input.candidate.factClaims, claim.kind = kind ∧ truthy claim.sourceRef = some id) ∨
    ∃ claim ∈ input.extracted host, claim.kind.toFactClaimKind = kind ∧
      ∃ trusted ∈ input.trustedFactClaims,
        trustedClaimSupports host trusted (claim.toFactClaim none) = true ∧
          truthy trusted.sourceRef = some id

/-- What the gates ask of a claim, whichever listed source they look at. -/
structure HarnessPolicyInput.Grounds (input : HarnessPolicyInput) (kind : FactClaimKind)
    (sourceRef : Option String) : Prop where
  listed : kind ≠ .other → ∃ id, truthy sourceRef = some id ∧ ∃ source ∈ input.sourceRefs,
    source.id = id
  fresh : kind.expires = true → ∀ id, truthy sourceRef = some id → ∀ source ∈ input.sourceRefs,
    source.id = id → source.staleAt host input.evaluatedAt = false

/-- **The condition**: references under one key agree, dates can be read, what a qualification rests
on is listed and up to date, trusted claims that support one claim have sources alike and text to
share, what is published or paid is that, and no enabled word holds a line break. -/
structure PolicyTold (input : HarnessPolicyInput) : Prop where
  sources : ∀ kind, kind.expires = true → ∀ a ∈ input.sourceRefs, ∀ b ∈ input.sourceRefs,
    a.id = b.id → input.Names host kind a.id →
      a.staleAt host input.evaluatedAt = b.staleAt host input.evaluatedAt
  rights : ∀ a ∈ input.rightsRefs, ∀ b ∈ input.rightsRefs, a.assetId = b.assetId →
    a.assetId ∈ input.candidate.assetRefs →
      a.allows input.candidate.intendedUse = b.allows input.candidate.intendedUse
  identities : ∀ a ∈ input.identityRefs, ∀ b ∈ input.identityRefs, a.id = b.id →
    truthy input.candidate.expressionIdentityRef = some a.id →
      (a.status = .registered ↔ b.status = .registered)
  dated : ∀ kind, kind ≠ .other → ∀ source ∈ input.sourceRefs, input.Names host kind source.id →
    ∀ expiresAt, source.expiresAt = some expiresAt →
      (input.evaluatedAt.bind host.dateParse).isSome ∧ (host.dateParse expiresAt).isSome
  qualified : ∀ id, input.Names host .qualification id →
    (∃ source ∈ input.sourceRefs, source.id = id) ∧
      ∀ source ∈ input.sourceRefs, source.id = id →
        source.staleAt host input.evaluatedAt = false
  supporters : ∀ claim ∈ input.extracted host, ∀ a ∈ input.trustedFactClaims,
    ∀ b ∈ input.trustedFactClaims,
      trustedClaimSupports host a (claim.toFactClaim none) = true →
        trustedClaimSupports host b (claim.toFactClaim none) = true →
          (input.Grounds host claim.kind.toFactClaimKind a.sourceRef ↔
            input.Grounds host claim.kind.toFactClaimKind b.sourceRef)
  worded : ∀ claim ∈ input.extracted host, ∀ trusted ∈ input.trustedFactClaims,
    trustedClaimSupports host trusted (claim.toFactClaim none) = true →
      comparableNumericValues host claim.value = [] →
        normalizeClaimValue host trusted.value ≠ [] ∧ normalizeClaimValue host claim.value ≠ []
  action : ∀ kind, input.phase.approvedKind = some kind → ∀ action,
    input.actionContext = some action → action.kind = kind
  words : ∀ row ∈ input.sensitiveLexicon, row.status = .enabled →
    '\n' ∉ (host.nfkc row.word).toList

end Law

/-! ## What passes is authorized -/

section Authorized

variable {host : PolicyHost} {input other : HarnessPolicyInput} {kind : FactClaimKind}
  {sourceRef : Option String} {claim : VisibleClaim} {id : String}

/-- Where a claim that is found has its source from. -/
theorem groundedClaim_cases : ((groundedClaim host input.trustedFactClaims claim).sourceRef = none ∨
    ∃ trusted ∈ input.trustedFactClaims,
      trustedClaimSupports host trusted (claim.toFactClaim none) = true ∧
        (groundedClaim host input.trustedFactClaims claim).sourceRef = truthy trusted.sourceRef) ∧
    ((∃ trusted ∈ input.trustedFactClaims,
      trustedClaimSupports host trusted (claim.toFactClaim none) = true) →
        ∃ trusted ∈ input.trustedFactClaims,
      trustedClaimSupports host trusted (claim.toFactClaim none) = true ∧
        (groundedClaim host input.trustedFactClaims claim).sourceRef =
          truthy trusted.sourceRef) := by
  rw [groundedClaim]
  cases hfind : input.trustedFactClaims.find?
      (trustedClaimSupports host · (claim.toFactClaim none)) with
  | none =>
    refine ⟨.inl rfl, fun ⟨trusted, hmem, hsupports⟩ => ?_⟩
    exact absurd hsupports (List.find?_eq_none.mp hfind trusted hmem)
  | some trusted =>
    have hfound : trusted ∈ input.trustedFactClaims ∧
        trustedClaimSupports host trusted (claim.toFactClaim none) = true :=
      ⟨List.mem_of_find?_eq_some hfind, by simpa using List.find?_some hfind⟩
    exact ⟨.inr ⟨trusted, hfound.1, hfound.2, rfl⟩, fun _ => ⟨trusted, hfound.1, hfound.2, rfl⟩⟩

/-- What the gates look at is declared, or found. -/
theorem mem_policyInput {fact : HarnessFactClaim} :
    fact ∈ (input.policyInput host).candidate.factClaims ↔ fact ∈ input.candidate.factClaims ∨
      ∃ claim ∈ input.extracted host,
        groundedClaim host input.trustedFactClaims claim = fact := by
  rw [policyInput_eq]
  exact List.mem_append.trans (or_congr Iff.rfl List.mem_map)

/-- A claim the gates look at names what it names. -/
theorem names_of_mem {fact : HarnessFactClaim}
    (hmem : fact ∈ (input.policyInput host).candidate.factClaims)
    (hid : truthy fact.sourceRef = some id) : input.Names host fact.kind id := by
  rcases mem_policyInput.mp hmem with hmem | ⟨claim, hclaim, rfl⟩
  · exact .inl ⟨fact, hmem, rfl, hid⟩
  · rcases (@groundedClaim_cases host input claim).1 with
      hnone | ⟨trusted, htrusted, hsupports, hsource⟩
    · rw [hnone] at hid
      exact nomatch hid
    · refine .inr ⟨claim, hclaim, rfl, trusted, htrusted, hsupports, ?_⟩
      rwa [hsource, truthy_truthy] at hid

/-- Not out of date, and with dates that can be read, a source is current. -/
theorem currentAt_of_fresh {source : PolicySourceRef}
    (hfresh : source.staleAt host input.evaluatedAt = false)
    (hdated : ∀ expiresAt, source.expiresAt = some expiresAt →
      (input.evaluatedAt.bind host.dateParse).isSome ∧ (host.dateParse expiresAt).isSome) :
    source.CurrentAt host input.evaluatedAt := by
  rw [PolicySourceRef.staleAt, decide_eq_false_iff_not, not_or, not_not] at hfresh
  refine ⟨hfresh.1, fun expiresAt hexpires => ?_⟩
  obtain ⟨hinstant, hexpiry⟩ := hdated expiresAt hexpires
  obtain ⟨instant, hinstant⟩ := Option.isSome_iff_exists.mp hinstant
  obtain ⟨expiry, hexpiry⟩ := Option.isSome_iff_exists.mp hexpiry
  refine ⟨instant, hinstant, expiry, hexpiry, ?_⟩
  have hlater := hfresh.2
  rw [hexpires, Option.bind_some, hexpiry, hinstant, Num.le_some, decide_eq_true_eq] at hlater
  exact not_le.mp hlater

/-- A kind that has to be current, a qualification, or one that names no source. -/
theorem kind_cases (h : kind ≠ .other) : kind.expires = true ∨ kind = .qualification := by
  cases kind with
  | other => exact absurd rfl h
  | qualification => exact .inr rfl
  | _ => exact .inl rfl

/-- What the gates accept is sourced. -/
theorem PolicyTold.sourced (h : PolicyTold host input) (hkind : kind ≠ .other)
    (hnames : ∀ id, truthy sourceRef = some id → input.Names host kind id)
    (haccepts : input.Accepts host kind sourceRef) : input.Sourced host sourceRef := by
  obtain ⟨id, hid, hlisted⟩ := haccepts.listed hkind
  have hcurrent : ∀ source ∈ input.sourceRefs, source.id = id →
      source.staleAt host input.evaluatedAt = false → input.Sourced host sourceRef := by
    rintro source hmem rfl hfresh
    refine ⟨source.id, hid, source, hmem, rfl, currentAt_of_fresh hfresh ?_⟩
    exact h.dated kind hkind source hmem (hnames _ hid)
  rcases kind_cases hkind with hexpires | rfl
  · obtain ⟨source, hmapped⟩ := Picking.exists_mapped hlisted
    obtain ⟨hmem, hkey⟩ := Picking.mem_of_mapped hmapped
    exact hcurrent source hmem hkey (haccepts.fresh hexpires id hid source hmapped)
  · obtain ⟨source, hmem, hkey⟩ := hlisted
    exact hcurrent source hmem hkey ((h.qualified id (hnames id hid)).2 source hmem hkey)

/-- A trusted claim that supports one, with text to share, backs it. -/
theorem backs_of_supports {trusted fact : HarnessFactClaim}
    (h : trustedClaimSupports host trusted fact = true)
    (hworded : comparableNumericValues host fact.value = [] →
      normalizeClaimValue host trusted.value ≠ [] ∧ normalizeClaimValue host fact.value ≠ []) :
    trusted.Backs host fact := by
  rw [trustedClaimSupports] at h
  by_cases hkinds : compatibleKinds trusted.kind fact.kind = true
  · rw [if_neg (not_not.mpr hkinds)] at h
    dsimp only at h
    refine ⟨hkinds, fun number hnumber => ?_, fun hnone => ?_⟩
    · rw [if_pos (List.ne_nil_of_mem hnumber), List.all_eq_true] at h
      simpa using h number hnumber
    · rw [if_neg (not_not.mpr hnone), decide_eq_true_eq] at h
      obtain ⟨htrusted, hfact⟩ := hworded hnone
      rcases h with hwithin | hwithin
      · exact ⟨_, hfact, hwithin, List.infix_refl _, .inr rfl⟩
      · exact ⟨_, htrusted, List.infix_refl _, hwithin, .inl rfl⟩
  · rw [if_pos hkinds] at h
    exact nomatch h

theorem toFactClaimKind_ne_other (kind : VisibleClaimPatternKind) :
    kind.toFactClaimKind ≠ .other := by
  cases kind <;> exact nofun

/-- **What passes is authorized.** -/
theorem PolicyTold.authorized (h : PolicyTold host input) (hcleared : input.Cleared host) :
    input.Authorized host where
  candidate := hcleared.candidate
  sources := hcleared.sources
  rightsOwned := hcleared.rightsOwned
  identities := hcleared.identities
  declared fact hmem hkind := by
    have hmem := (@mem_policyInput host input _).mpr (.inl hmem)
    exact h.sourced hkind (fun _ hid => names_of_mem hmem hid) (hcleared.claims fact hmem)
  visible hphase claim hmem := by
    have hmem : claim ∈ input.extracted host := by
      rw [HarnessPolicyInput.extracted, HarnessPolicyInput.claimExtraction, if_neg hphase]
      exact hmem
    have hfact := (@mem_policyInput host input _).mpr (.inr ⟨claim, hmem, rfl⟩)
    have hkind := toFactClaimKind_ne_other claim.kind
    have haccepts : input.Accepts host claim.kind.toFactClaimKind _ := hcleared.claims _ hfact
    have hsourced := h.sourced hkind (fun _ hid => names_of_mem hfact hid) haccepts
    rcases (@groundedClaim_cases host input claim).1 with
      hnone | ⟨trusted, htrusted, hsupports, hsource⟩
    · obtain ⟨id, hid, -⟩ := hsourced
      rw [hnone] at hid
      cases hid
    · refine ⟨trusted, htrusted, hsource, ?_, ?_⟩
      · exact backs_of_supports hsupports (h.worded claim hmem trusted htrusted hsupports)
      · rw [hsource] at hsourced
        obtain ⟨id, hid, hrest⟩ := hsourced
        exact ⟨id, (truthy_truthy _).symm.trans hid, hrest⟩
  rights assetId hasset rights hrights hkey := by
    obtain ⟨found, hmapped, hallows⟩ := hcleared.rights assetId hasset
    obtain ⟨hmem, hkey'⟩ := Picking.mem_of_mapped hmapped
    rw [← h.rights found hmem rights hrights (hkey'.trans hkey.symm) (hkey' ▸ hasset)]
    exact hallows
  approved kind hkind := by
    have hexternal : input.phase.isExternal = true ∧ kind ≠ .export_ := by
      cases hphase : input.phase <;> rw [hphase] at hkind <;> cases hkind <;>
        exact ⟨rfl, by rintro ⟨⟩⟩
    obtain ⟨action, hcontext, hrevision, happroved⟩ := hcleared.external hexternal.1
    obtain rfl := h.action kind hkind action hcontext
    obtain ⟨receipt, hreceipt, happroves⟩ := happroved hexternal.2
    obtain ⟨hstatus, hkind, htarget, hsame⟩ := of_decide_eq_true happroves
    exact ⟨action, receipt, hcontext, hreceipt, hstatus, hkind, htarget, hsame ▸ hrevision⟩

end Authorized

/-! ## The order is not seen -/

section Order

variable {host : PolicyHost} {input other : HarnessPolicyInput} {kind : FactClaimKind}
  {sourceRef : Option String} {claim : VisibleClaim} {id : String}

/-- Of what has been seen before, nothing is kept; of the rest, everything is. -/
theorem mem_deduplicateFrom : ∀ {seen claims : List VisibleClaim},
    claim ∈ deduplicateFrom seen claims ↔ claim ∈ claims ∧ claim ∉ seen
  | _, [] => by simp [deduplicateFrom]
  | seen, first :: claims => by
    rw [deduplicateFrom]
    split
    · next hseen =>
      rw [mem_deduplicateFrom, List.mem_cons]
      refine ⟨fun h => ⟨.inr h.1, h.2⟩, fun h => ⟨h.1.resolve_left ?_, h.2⟩⟩
      rintro rfl
      exact h.2 hseen
    · next hseen =>
      rw [List.mem_cons, mem_deduplicateFrom, List.mem_cons, List.mem_cons, not_or]
      constructor
      · rintro (rfl | h)
        · exact ⟨.inl rfl, hseen⟩
        · exact ⟨.inr h.1, h.2.2⟩
      · rintro ⟨rfl | hmem, hout⟩
        · exact .inl rfl
        · by_cases hfirst : claim = first
          · exact .inl hfirst
          · exact .inr ⟨hmem, hfirst, hout⟩

/-- What is found is found in a row of the text. -/
theorem mem_extracted : claim ∈ input.extracted host ↔ input.phase ≠ .execution ∧
    ∃ row ∈ input.candidate.visibleText,
      claim ∈ extractClaimsFromField host (Text.trim row.field) (Text.trim row.text) := by
  rw [HarnessPolicyInput.extracted, HarnessPolicyInput.claimExtraction]
  by_cases hphase : input.phase = .execution
  · rw [if_pos hphase]
    exact iff_of_false List.not_mem_nil fun h => h.1 hphase
  · rw [if_neg hphase, and_iff_right hphase]
    simp [extractVisibleClaims, deduplicateVisibleClaims, mem_deduplicateFrom, List.mem_flatMap]

/-- **What a verdict asks for, of the members of the lists.** -/
structure HarnessPolicyInput.Grounded (host : PolicyHost) (input : HarnessPolicyInput) :
    Prop where
  candidate : input.candidate.workspaceId = input.workspaceId
  sources : ∀ source ∈ input.sourceRefs, source.workspaceId = input.workspaceId
  rightsOwned : ∀ rights ∈ input.rightsRefs, rights.workspaceId = input.workspaceId
  identities : ∀ identity ∈ input.identityRefs, identity.workspaceId = input.workspaceId
  declared : ∀ claim ∈ input.candidate.factClaims, input.Grounds host claim.kind claim.sourceRef
  visible : ∀ claim ∈ input.extracted host, ∃ trusted ∈ input.trustedFactClaims,
    trustedClaimSupports host trusted (claim.toFactClaim none) = true ∧
      input.Grounds host claim.kind.toFactClaimKind trusted.sourceRef
  rights : ∀ assetId ∈ input.candidate.assetRefs, ∃ rights ∈ input.rightsRefs,
    rights.assetId = assetId ∧ rights.allows input.candidate.intendedUse = true
  identity : ∀ identityRef, truthy input.candidate.expressionIdentityRef = some identityRef →
    ∃ identity ∈ input.identityRefs, identity.id = identityRef ∧ identity.status = .registered
  words : sensitiveWordsGate host (input.policyInput host) = .ok none
  external : input.phase.isExternal = true → ∃ action, input.GoesOut action

/-- Where the sources under an id agree, what is mapped there is any of them. -/
theorem PolicyTold.accepts_iff (h : PolicyTold host input)
    (hnames : ∀ id, truthy sourceRef = some id → input.Names host kind id) :
    input.Accepts host kind sourceRef ↔ input.Grounds host kind sourceRef := by
  constructor
  · intro haccepts
    refine ⟨haccepts.listed, fun hexpires id hid source hmem hkey => ?_⟩
    obtain ⟨found, hmapped⟩ := Picking.exists_mapped ⟨source, hmem, hkey⟩
    obtain ⟨hfound, hkey'⟩ := Picking.mem_of_mapped hmapped
    rw [h.sources kind hexpires source hmem found hfound (hkey.trans hkey'.symm)
      (hkey ▸ hnames id hid)]
    exact haccepts.fresh hexpires id hid found hmapped
  · intro hgrounds
    refine ⟨hgrounds.listed, fun hexpires id hid source hmapped => ?_⟩
    obtain ⟨hmem, hkey⟩ := Picking.mem_of_mapped hmapped
    exact hgrounds.fresh hexpires id hid source hmem hkey

/-- Whether a source is named through `truthy` or not is not seen. -/
theorem grounds_truthy : input.Grounds host kind (truthy sourceRef) ↔
    input.Grounds host kind sourceRef := by
  constructor <;> rintro ⟨hlisted, hfresh⟩ <;>
    exact ⟨by simpa only [truthy_truthy] using hlisted, by simpa only [truthy_truthy] using hfresh⟩

/-- A claim that is found is grounded through any trusted claim that supports it. -/
theorem PolicyTold.found_iff (h : PolicyTold host input) (hmem : claim ∈ input.extracted host) :
    input.Grounds host claim.kind.toFactClaimKind
        (groundedClaim host input.trustedFactClaims claim).sourceRef ↔
      ∃ trusted ∈ input.trustedFactClaims,
        trustedClaimSupports host trusted (claim.toFactClaim none) = true ∧
          input.Grounds host claim.kind.toFactClaimKind trusted.sourceRef := by
  constructor
  · intro hgrounds
    rcases (@groundedClaim_cases host input claim).1 with
      hnone | ⟨trusted, htrusted, hsupports, hsource⟩
    · obtain ⟨id, hid, -⟩ := hgrounds.listed (toFactClaimKind_ne_other _)
      rw [hnone] at hid
      exact nomatch hid
    · rw [hsource, grounds_truthy] at hgrounds
      exact ⟨trusted, htrusted, hsupports, hgrounds⟩
  · rintro ⟨trusted, htrusted, hsupports, hgrounds⟩
    obtain ⟨found, hfound, hsupports', hsource⟩ :=
      (@groundedClaim_cases host input claim).2 ⟨trusted, htrusted, hsupports⟩
    rw [hsource, grounds_truthy]
    exact (h.supporters claim hmem trusted htrusted found hfound hsupports hsupports').mp hgrounds

/-- **A verdict is about the members of the lists.** -/
theorem PolicyTold.cleared_iff (h : PolicyTold host input) :
    input.Cleared host ↔ input.Grounded host := by
  have hclaims : (∀ fact ∈ (input.policyInput host).candidate.factClaims,
      input.Accepts host fact.kind fact.sourceRef) ↔
        (∀ fact ∈ input.candidate.factClaims, input.Grounds host fact.kind fact.sourceRef) ∧
          ∀ claim ∈ input.extracted host, ∃ trusted ∈ input.trustedFactClaims,
            trustedClaimSupports host trusted (claim.toFactClaim none) = true ∧
              input.Grounds host claim.kind.toFactClaimKind trusted.sourceRef := by
    have haccepts : ∀ fact ∈ (input.policyInput host).candidate.factClaims,
        (input.Accepts host fact.kind fact.sourceRef ↔
          input.Grounds host fact.kind fact.sourceRef) := fun fact hmem =>
      h.accepts_iff fun _ hid => names_of_mem hmem hid
    constructor
    · intro hall
      refine ⟨fun fact hmem => ?_, fun claim hmem => ?_⟩
      · have hmem := (@mem_policyInput host input _).mpr (.inl hmem)
        exact (haccepts fact hmem).mp (hall fact hmem)
      · have hfact := (@mem_policyInput host input _).mpr (.inr ⟨claim, hmem, rfl⟩)
        exact (h.found_iff hmem).mp ((haccepts _ hfact).mp (hall _ hfact))
    · rintro ⟨hdeclared, hfound⟩ fact hmem
      refine (haccepts fact hmem).mpr ?_
      rcases mem_policyInput.mp hmem with hmem | ⟨claim, hclaim, rfl⟩
      · exact hdeclared fact hmem
      · exact (h.found_iff hclaim).mpr (hfound claim hclaim)
  have hrights : ∀ assetId ∈ input.candidate.assetRefs,
      ((∃ rights, Picking.mapped (·.assetId) input.rightsRefs assetId = some rights ∧
        rights.allows input.candidate.intendedUse = true) ↔ ∃ rights ∈ input.rightsRefs,
          rights.assetId = assetId ∧ rights.allows input.candidate.intendedUse = true) := by
    intro assetId hasset
    refine Picking.mapped_iff fun a ha b hb hkey hkey' => ?_
    rw [h.rights a ha b hb (hkey.trans hkey'.symm) (hkey ▸ hasset)]
  have hidentity : ∀ identityRef,
      truthy input.candidate.expressionIdentityRef = some identityRef →
        ((∃ identity, input.identityRefs.find? (·.id = identityRef) = some identity ∧
          identity.status = .registered) ↔ ∃ identity ∈ input.identityRefs,
            identity.id = identityRef ∧ identity.status = .registered) := by
    intro identityRef href
    refine Picking.find_iff fun a ha b hb hkey hkey' => ?_
    exact h.identities a ha b hb (hkey.trans hkey'.symm) (hkey ▸ href)
  constructor
  · intro hc
    obtain ⟨hdeclared, hfound⟩ := hclaims.mp hc.claims
    exact ⟨hc.candidate, hc.sources, hc.rightsOwned, hc.identities, hdeclared, hfound,
      fun id hmem => (hrights id hmem).mp (hc.rights id hmem),
      fun id href => (hidentity id href).mp (hc.identity id href), hc.words, hc.external⟩
  · intro hg
    exact ⟨hg.candidate, hg.sources, hg.rightsOwned, hg.identities,
      hclaims.mpr ⟨hg.declared, hg.visible⟩,
      fun id hmem => (hrights id hmem).mpr (hg.rights id hmem),
      fun id href => (hidentity id href).mpr (hg.identity id href), hg.words, hg.external⟩

end Order

section Reordered

variable {host : PolicyHost} {input other : HarnessPolicyInput} {kind : FactClaimKind}
  {sourceRef : Option String} {claim : VisibleClaim} {id : String}

theorem Reordered.symm (h : Reordered input other) : Reordered other input where
  phase := h.phase.symm
  evaluatedAt := h.evaluatedAt.symm
  workspaceId := h.workspaceId.symm
  candidate := h.candidate.symm
  intendedUse := h.intendedUse.symm
  expressionIdentityRef := h.expressionIdentityRef.symm
  actionContext := h.actionContext.symm
  approvalReceipt := h.approvalReceipt.symm
  currentRevision := h.currentRevision.symm
  factClaims := h.factClaims.symm
  assetRefs := h.assetRefs.symm
  visibleText := h.visibleText.symm
  trustedFactClaims := h.trustedFactClaims.symm
  sourceRefs := h.sourceRefs.symm
  rightsRefs := h.rightsRefs.symm
  identityRefs := h.identityRefs.symm
  sensitiveLexicon := h.sensitiveLexicon.symm

/-- Rights of one list are those of the other, whatever the order of their uses. -/
theorem Reordered.rights (h : Reordered input other) {rights : PolicyRightsRef}
    (hmem : rights ∈ other.rightsRefs) : ∃ rights' ∈ input.rightsRefs,
      rights.assetId = rights'.assetId ∧ rights.workspaceId = rights'.workspaceId ∧
        ∀ use, rights.allows use = rights'.allows use := by
  obtain ⟨rights', hmem', hsame⟩ := List.mem_map.mp
    (h.rightsRefs.mem_iff.mp (List.mem_map_of_mem hmem))
  obtain ⟨hasset, hworkspace, hstatus, huses⟩ :
      rights'.assetId = rights.assetId ∧ rights'.workspaceId = rights.workspaceId ∧
        rights'.status = rights.status ∧
          (rights'.allowedUses : Multiset IntendedUse) = rights.allowedUses := by
    simpa [PolicyRightsRef.unordered] using hsame
  refine ⟨rights', hmem', hasset.symm, hworkspace.symm, fun use => ?_⟩
  rw [PolicyRightsRef.allows, PolicyRightsRef.allows, hstatus]
  simp only [(Multiset.coe_eq_coe.mp huses).mem_iff]

theorem Reordered.extracted (h : Reordered input other) :
    claim ∈ other.extracted host ↔ claim ∈ input.extracted host := by
  simp only [mem_extracted, h.phase, h.visibleText.mem_iff]

/-- What is found is found once. -/
theorem nodup_deduplicateFrom : ∀ {seen claims : List VisibleClaim},
    (deduplicateFrom seen claims).Nodup
  | _, [] => by simp [deduplicateFrom]
  | seen, first :: claims => by
    rw [deduplicateFrom]
    split
    · exact nodup_deduplicateFrom
    · rw [List.nodup_cons, mem_deduplicateFrom, not_and_not_right]
      exact ⟨fun _ => List.mem_cons_self, nodup_deduplicateFrom⟩

theorem Reordered.extracted_perm (h : Reordered input other) :
    (other.extracted host).Perm (input.extracted host) := by
  have hnodup : ∀ input : HarnessPolicyInput, (input.extracted host).Nodup := by
    intro input
    rw [HarnessPolicyInput.extracted, HarnessPolicyInput.claimExtraction]
    split
    · exact List.nodup_nil
    · exact nodup_deduplicateFrom
  exact (List.perm_ext_iff_of_nodup (hnodup other) (hnodup input)).mpr fun _ => h.extracted

/-- The texts that are scanned are the same: a claim that is found keeps its value. -/
theorem Reordered.scanned (h : Reordered input other) :
    (other.policyInput host).candidate.scanned.Perm
      (input.policyInput host).candidate.scanned := by
  have hvalue : ∀ (trusted : List HarnessFactClaim) (claim : VisibleClaim),
      (groundedClaim host trusted claim).value = claim.value := fun _ _ => rfl
  rw [policyInput_eq, policyInput_eq]
  refine ((h.visibleText.map _).append ?_).filter _
  simp only [List.map_append, List.map_map, Function.comp_def, hvalue]
  exact (h.factClaims.map _).append (h.extracted_perm.map _)

/-- **The gate of the sensitive words does not see the order**, where no word holds a line
break. -/
theorem PolicyTold.words_reordered (htold : PolicyTold host input) (h : Reordered input other)
    (hwords : sensitiveWordsGate host (input.policyInput host) = .ok none) :
    sensitiveWordsGate host (other.policyInput host) = .ok none := by
  have hlexicon : ∀ input : HarnessPolicyInput,
      (input.policyInput host).sensitiveLexicon = input.sensitiveLexicon := by
    intro input
    rw [policyInput_eq]
  have hscanned := @Reordered.scanned host _ _ h
  rw [sensitiveWordsGate_eq_none, hlexicon] at hwords ⊢
  rcases hwords with hempty | hempty | hclear
  · exact .inl (hempty ▸ h.sensitiveLexicon).eq_nil
  · exact .inr (.inl (hempty ▸ hscanned).eq_nil)
  · by_cases hne : (input.policyInput host).candidate.scanned = []
    · exact .inr (.inl (hne ▸ hscanned).eq_nil)
    · exact .inr (.inr (hclear.reordered htold.words hne hscanned h.sensitiveLexicon))

theorem Reordered.names (h : Reordered input other) :
    other.Names host kind id ↔ input.Names host kind id := by
  simp only [HarnessPolicyInput.Names, h.factClaims.mem_iff, @h.extracted host,
    h.trustedFactClaims.mem_iff]

theorem Reordered.grounds (h : Reordered input other) :
    other.Grounds host kind sourceRef ↔ input.Grounds host kind sourceRef := by
  constructor <;> rintro ⟨hlisted, hfresh⟩
  · simp only [h.sourceRefs.mem_iff, h.evaluatedAt] at hlisted hfresh
    exact ⟨hlisted, hfresh⟩
  · refine ⟨?_, ?_⟩
    · simpa only [h.sourceRefs.mem_iff] using hlisted
    · simpa only [h.sourceRefs.mem_iff, h.evaluatedAt] using hfresh

/-- **The condition does not see the order.** -/
theorem PolicyTold.reordered (htold : PolicyTold host input) (h : Reordered input other) :
    PolicyTold host other where
  sources := by
    simpa only [h.sourceRefs.mem_iff, h.names, h.evaluatedAt] using htold.sources
  rights a ha b hb hkey hmem := by
    obtain ⟨a', ha', hasset, -, hallows⟩ := h.rights ha
    obtain ⟨b', hb', hasset', -, hallows'⟩ := h.rights hb
    rw [hallows, hallows', h.intendedUse]
    refine htold.rights a' ha' b' hb' (hasset.symm.trans (hkey.trans hasset')) ?_
    exact hasset ▸ h.assetRefs.mem_iff.mp hmem
  identities := by
    simpa only [h.identityRefs.mem_iff, h.expressionIdentityRef] using htold.identities
  dated := by
    simpa only [h.sourceRefs.mem_iff, h.names, h.evaluatedAt] using htold.dated
  qualified := by
    simpa only [h.sourceRefs.mem_iff, h.names, h.evaluatedAt] using htold.qualified
  supporters := by
    simpa only [h.extracted, h.trustedFactClaims.mem_iff, h.grounds] using htold.supporters
  worded := by
    simpa only [h.extracted, h.trustedFactClaims.mem_iff] using htold.worded
  action := by
    simpa only [h.phase, h.actionContext] using htold.action
  words := by
    simpa only [h.sensitiveLexicon.mem_iff] using htold.words

/-- **What a verdict asks for does not see the order.** -/
theorem PolicyTold.grounded_reordered (htold : PolicyTold host input) (h : Reordered input other)
    (hgrounded : input.Grounded host) : other.Grounded host where
  candidate := h.candidate.trans (hgrounded.candidate.trans h.workspaceId.symm)
  sources := by
    simpa only [h.sourceRefs.mem_iff, h.workspaceId] using hgrounded.sources
  rightsOwned rights hmem := by
    obtain ⟨rights', hmem', -, hworkspace, -⟩ := h.rights hmem
    exact hworkspace.trans ((hgrounded.rightsOwned rights' hmem').trans h.workspaceId.symm)
  identities := by
    simpa only [h.identityRefs.mem_iff, h.workspaceId] using hgrounded.identities
  declared := by
    simpa only [h.factClaims.mem_iff, h.grounds] using hgrounded.declared
  visible := by
    simpa only [h.extracted, h.trustedFactClaims.mem_iff, h.grounds] using hgrounded.visible
  rights assetId hmem := by
    obtain ⟨rights, hrights, hkey, hallows⟩ :=
      hgrounded.rights assetId (h.assetRefs.mem_iff.mp hmem)
    obtain ⟨rights', hrights', hasset, -, hallows'⟩ := h.symm.rights hrights
    refine ⟨rights', hrights', hasset.symm.trans hkey, ?_⟩
    rw [h.intendedUse, ← hallows', hallows]
  identity := by
    simpa only [h.identityRefs.mem_iff, h.expressionIdentityRef] using hgrounded.identity
  words := htold.words_reordered h hgrounded.words
  external hphase := by
    obtain ⟨action, hcontext, hrevision, happroved⟩ := hgrounded.external (h.phase ▸ hphase)
    refine ⟨action, h.actionContext.trans hcontext, hrevision.trans h.currentRevision.symm, ?_⟩
    simpa only [h.approvalReceipt] using happroved

/-- **The verdict does not see the order.** -/
theorem PolicyTold.unordered (htold : PolicyTold host input) (h : Reordered input other) :
    other.Passes host ↔ input.Passes host := by
  have htold' := htold.reordered h
  rw [passes_iff, passes_iff, htold.cleared_iff, htold'.cleared_iff]
  exact ⟨htold'.grounded_reordered h.symm, htold.grounded_reordered h⟩

end Reordered

/-! ## What denies lets nothing pass -/

section Denied

variable {host : PolicyHost} {input other : HarnessPolicyInput}

/-- The gates look at the same claims when a reference is added. -/
theorem AddsDenial.claims (h : AddsDenial host input other) :
    (other.policyInput host).candidate = (input.policyInput host).candidate := by
  rw [policyInput_eq, policyInput_eq]
  cases h <;> rfl

theorem AddsDenial.words (h : AddsDenial host input other) :
    sensitiveWordsGate host (other.policyInput host) =
      sensitiveWordsGate host (input.policyInput host) := by
  have hlexicon : (other.policyInput host).sensitiveLexicon =
      (input.policyInput host).sensitiveLexicon := by
    rw [policyInput_eq, policyInput_eq]
    cases h <;> rfl
  rw [sensitiveWordsGate, sensitiveWordsGate, h.claims, hlexicon]

theorem mem_insert {α : Type} {before after : List α} {a b : α} (h : b ∈ before ++ after) :
    b ∈ before ++ a :: after :=
  List.mem_append.mpr ((List.mem_append.mp h).imp id (List.mem_cons_of_mem _))

/-- Beside a source that is out of date, a claim is accepted that was before. -/
theorem PolicyTold.accepts_of_insert (h : PolicyTold host input) {kind : FactClaimKind}
    {sourceRef : Option String} {before after : List PolicySourceRef} {source : PolicySourceRef}
    (hsources : input.sourceRefs = before ++ after)
    (hstale : source.staleAt host input.evaluatedAt = true)
    (hnames : ∀ id, truthy sourceRef = some id → input.Names host kind id)
    (haccepts : ({ input with sourceRefs := before ++ source :: after } :
      HarnessPolicyInput).Accepts host kind sourceRef) : input.Accepts host kind sourceRef := by
  have hmapped : kind.expires = true → ∀ id, truthy sourceRef = some id →
      Picking.mapped (·.id) (before ++ source :: after) id =
        Picking.mapped (·.id) input.sourceRefs id := by
    intro hexpires id hid
    rw [hsources]
    refine Picking.mapped_insert.resolve_left fun ⟨hmapped, _⟩ => ?_
    have hfresh := haccepts.fresh hexpires id hid source hmapped
    exact Bool.noConfusion (hstale.symm.trans hfresh)
  refine ⟨fun hkind => ?_, fun hexpires id hid found hfound => ?_⟩
  · obtain ⟨id, hid, hlisted⟩ := haccepts.listed hkind
    rcases kind_cases hkind with hexpires | rfl
    · obtain ⟨found, hfound⟩ := Picking.exists_mapped hlisted
      have hfound := (hmapped hexpires id hid).symm.trans hfound
      exact ⟨id, hid, found, Picking.mem_of_mapped hfound⟩
    · exact ⟨id, hid, (h.qualified id (hnames id hid)).1⟩
  · exact haccepts.fresh hexpires id hid found ((hmapped hexpires id hid).trans hfound)

/-- **A reference that denies lets nothing pass.** -/
theorem PolicyTold.denied (h : PolicyTold host input) (hadds : AddsDenial host input other)
    (hcleared : other.Cleared host) : input.Cleared host := by
  have hwords := hadds.words.symm.trans hcleared.words
  have hclaims := hcleared.claims
  rw [hadds.claims] at hclaims
  cases hadds with
  | source hsources hstale =>
    refine ⟨hcleared.candidate, fun source hmem => ?_, hcleared.rightsOwned, hcleared.identities,
      fun fact hmem => ?_, hcleared.rights, hcleared.identity, hwords, fun hphase => ?_⟩
    · exact hcleared.sources source (mem_insert (hsources ▸ hmem))
    · exact h.accepts_of_insert hsources hstale (fun _ hid => names_of_mem hmem hid)
        (hclaims fact hmem)
    · obtain ⟨action, hcontext, hrevision, happroved⟩ := hcleared.external hphase
      exact ⟨action, hcontext, hrevision, happroved⟩
  | rights hrights hdenies =>
    refine ⟨hcleared.candidate, hcleared.sources, fun rights hmem => ?_, hcleared.identities,
      fun fact hmem => ?_, fun assetId hmem => ?_, hcleared.identity, hwords, fun hphase => ?_⟩
    · exact hcleared.rightsOwned rights (mem_insert (hrights ▸ hmem))
    · exact ⟨(hclaims fact hmem).listed, (hclaims fact hmem).fresh⟩
    · obtain ⟨found, hmapped, hallows⟩ := hcleared.rights assetId hmem
      rw [hrights]
      rcases Picking.mapped_insert with ⟨hdenied, -⟩ | hsame
      · obtain rfl := Option.some.inj (hdenied.symm.trans hmapped)
        exact Bool.noConfusion (hdenies.symm.trans hallows)
      · exact ⟨found, hsame.symm.trans hmapped, hallows⟩
    · obtain ⟨action, hcontext, hrevision, happroved⟩ := hcleared.external hphase
      exact ⟨action, hcontext, hrevision, happroved⟩
  | identity hidentities hdenies =>
    refine ⟨hcleared.candidate, hcleared.sources, hcleared.rightsOwned, fun identity hmem => ?_,
      fun fact hmem => ?_, hcleared.rights, fun identityRef href => ?_, hwords, fun hphase => ?_⟩
    · exact hcleared.identities identity (mem_insert (hidentities ▸ hmem))
    · exact ⟨(hclaims fact hmem).listed, (hclaims fact hmem).fresh⟩
    · obtain ⟨found, hfind, hregistered⟩ := hcleared.identity identityRef href
      rw [hidentities]
      rcases Picking.find_insert with ⟨hdenied, -⟩ | hsame
      · obtain rfl := Option.some.inj (hdenied.symm.trans hfind)
        exact absurd hregistered hdenies
      · exact ⟨found, hsame.symm.trans hfind, hregistered⟩
    · obtain ⟨action, hcontext, hrevision, happroved⟩ := hcleared.external hphase
      exact ⟨action, hcontext, hrevision, happroved⟩

end Denied

/-! ## Open gates -/

theorem toLower_line {c : Char} (h : c.toLower = Char.toLower '\n') : c = '\n' := by
  have hline : Char.toLower '\n' = '\n' := by decide
  rw [hline] at h
  delta Char.toLower at h
  split at h
  · next hupper =>
    -- no capital letter is 32 below a line break
    have hval : c.val + 32 = 10 := congrArg Char.val h
    have hlow : 65 ≤ c.val := hupper.1
    have hhigh : c.val ≤ 90 := hupper.2
    grind
  · exact h

/-- The host of concrete inputs: a text with a digit in it makes an offer. -/
def plainPolicyHost : PolicyHost where
  toHost := isoHost
  segments text := text.map ([·])
  nfkc := id
  foldCase := Char.toLower
  normalized_line before after := by simp [normalizedBy]
  foldCase_line _ := toLower_line
  toLowerCase := id
  isLetterOrNumber := Char.isAlphanum
  canonicalNumericValue := id
  isFinite _ := true
  parseJson _ := none
  digest := id
  extractVisibleClaimPatternMatches text :=
    if text.toList.any Char.isDigit then [⟨.offer, text⟩] else []

/-- An approved publication with a price that is sourced, an offer that is found, and a word that
is not. -/
def approvedPublication : HarnessPolicyInput where
  phase := .publish
  evaluatedAt := some "2026-07-01T00:00:00.000Z"
  workspaceId := "w"
  candidate :=
    { workspaceId := "w"
      intendedUse := .public_content
      factClaims := [⟨.price, "398", some "source"⟩]
      assetRefs := ["asset"]
      expressionIdentityRef := some "identity"
      visibleText := [⟨"title", "now 398"⟩] }
  trustedFactClaims := [⟨.price, "398", some "source"⟩]
  sourceRefs := [⟨"source", "w", .current, some "2026-08-01T00:00:00.000Z"⟩]
  rightsRefs := [⟨"asset", "w", .authorized, [.public_content]⟩]
  identityRefs := [⟨"identity", "w", .registered⟩]
  sensitiveLexicon := [⟨"word", "best", .extreme, [], .enabled⟩]
  actionContext := some ⟨.publish, "account", 7⟩
  approvalReceipt := some ⟨.approved, .publish, "account", 7⟩
  currentRevision := some 7

/-- A publication whose context is an export, and that nobody has approved. -/
def exportedPublication : HarnessPolicyInput where
  phase := .publish
  workspaceId := "w"
  candidate := { workspaceId := "w", intendedUse := .public_content }
  actionContext := some ⟨.export_, "account", 7⟩
  currentRevision := some 7

end MeiyeAgent
