import MeiyeAgent.Harness.PolicyGates

/-!
# Harness/GateVerdicts — what a verdict asks for

Each gate is open on a condition of its own, and a candidate passes when all of them are
(`passes_iff`).  A reference is looked up by its key: the last one listed, as a map of the list
holds it, or the first, as a search finds it.
-/

namespace MeiyeAgent

/-! ## What a verdict asks for -/

section Verdict

variable (host : PolicyHost)

/-- **A candidate passes.** -/
def HarnessPolicyInput.Passes (input : HarnessPolicyInput) : Prop :=
  ∃ result, validateHarnessPolicy host input = .ok result ∧ result.passed = true

/-- The claims found in the visible text. -/
def HarnessPolicyInput.extracted (input : HarnessPolicyInput) : List VisibleClaim :=
  ((input.claimExtraction host).map (·.claims)).getD []

/-- What the gates ask of a claim of a kind that names a source. -/
structure HarnessPolicyInput.Accepts (input : HarnessPolicyInput) (kind : FactClaimKind)
    (sourceRef : Option String) : Prop where
  listed : kind ≠ .other → ∃ id, truthy sourceRef = some id ∧ ∃ source ∈ input.sourceRefs,
    source.id = id
  fresh : kind.expires → ∀ id, truthy sourceRef = some id → ∀ source,
    Picking.mapped (·.id) input.sourceRefs id = some source →
      source.staleAt host input.evaluatedAt = false

/-- What the gates ask of an action that goes out. -/
structure HarnessPolicyInput.GoesOut (input : HarnessPolicyInput) (action : PolicyActionContext) :
    Prop where
  context : input.actionContext = some action
  revision : some action.revision = input.currentRevision
  approved : action.kind ≠ .export_ → ∃ receipt, input.approvalReceipt = some receipt ∧
    receipt.approves action = true

/-- **What a verdict asks for.** -/
structure HarnessPolicyInput.Cleared (input : HarnessPolicyInput) : Prop where
  candidate : input.candidate.workspaceId = input.workspaceId
  sources : ∀ source ∈ input.sourceRefs, source.workspaceId = input.workspaceId
  rightsOwned : ∀ rights ∈ input.rightsRefs, rights.workspaceId = input.workspaceId
  identities : ∀ identity ∈ input.identityRefs, identity.workspaceId = input.workspaceId
  claims : ∀ claim ∈ (input.policyInput host).candidate.factClaims,
    input.Accepts host claim.kind claim.sourceRef
  rights : ∀ assetId ∈ input.candidate.assetRefs, ∃ rights,
    Picking.mapped (·.assetId) input.rightsRefs assetId = some rights ∧
      rights.allows input.candidate.intendedUse = true
  identity : ∀ identityRef, truthy input.candidate.expressionIdentityRef = some identityRef →
    ∃ identity, input.identityRefs.find? (·.id = identityRef) = some identity ∧
      identity.status = .registered
  words : sensitiveWordsGate host (input.policyInput host) = .ok none
  external : input.phase.isExternal = true → ∃ action, input.GoesOut action

end Verdict

section Gates

variable {host : PolicyHost} {input other : HarnessPolicyInput}

/-- The gates look at the input, with the claims of the visible text. -/
theorem policyInput_eq : input.policyInput host = { input with
    candidate.factClaims := input.candidate.factClaims ++
      (input.extracted host).map (groundedClaim host input.trustedFactClaims) } := by
  rw [HarnessPolicyInput.policyInput, HarnessPolicyInput.extracted]
  cases input.claimExtraction host with
  | none => simp
  | some extraction => rfl

theorem crossWorkspaceGate_eq_none : crossWorkspaceGate input = none ↔
    input.candidate.workspaceId = input.workspaceId ∧
      (∀ source ∈ input.sourceRefs, source.workspaceId = input.workspaceId) ∧
      (∀ rights ∈ input.rightsRefs, rights.workspaceId = input.workspaceId) ∧
      ∀ identity ∈ input.identityRefs, identity.workspaceId = input.workspaceId := by
  rw [crossWorkspaceGate]
  simp

theorem listedIn_iff {claim : HarnessFactClaim} {sourceRefs : List PolicySourceRef} :
    claim.listedIn sourceRefs = true ↔ ∃ id, truthy claim.sourceRef = some id ∧
      ∃ source ∈ sourceRefs, source.id = id := by
  rw [HarnessFactClaim.listedIn, Option.any_eq_true]
  simp

theorem criticalFactSourceGate_eq_none {claimExtraction : Option VisibleClaimExtraction} :
    criticalFactSourceGate input claimExtraction = none ↔
      ∀ claim ∈ input.candidate.factClaims, claim.kind ≠ .other →
        claim.listedIn input.sourceRefs = true := by
  rw [criticalFactSourceGate]
  constructor
  · intro h
    split at h
    · next hall => simpa using hall
    · dsimp only at h
      split at h <;> exact nomatch h
  · intro h
    rw [if_pos]
    simpa using h

theorem subjectAssetRightsGate_eq_none : subjectAssetRightsGate input = none ↔
    ∀ assetId ∈ input.candidate.assetRefs, ∃ rights,
      Picking.mapped (·.assetId) input.rightsRefs assetId = some rights ∧
        rights.allows input.candidate.intendedUse = true := by
  rw [subjectAssetRightsGate]
  simp [Option.any_eq_true]

theorem expressionIdentityGate_eq_none : expressionIdentityGate input = none ↔
    ∀ identityRef, truthy input.candidate.expressionIdentityRef = some identityRef →
      ∃ identity, input.identityRefs.find? (·.id = identityRef) = some identity ∧
        identity.status = .registered := by
  rw [expressionIdentityGate]
  cases truthy input.candidate.expressionIdentityRef with
  | none => simp
  | some identityRef => simp [Option.any_eq_true]

theorem priceBenefitFreshnessGate_eq_none : priceBenefitFreshnessGate host input = none ↔
    ∀ claim ∈ input.candidate.factClaims, claim.kind.expires = true → ∀ id,
      truthy claim.sourceRef = some id → ∀ source,
        Picking.mapped (·.id) input.sourceRefs id = some source →
          source.staleAt host input.evaluatedAt = false := by
  rw [priceBenefitFreshnessGate]
  simp only [ite_eq_right_iff, reduceCtorEq, imp_false, Bool.not_eq_true, List.any_eq_false,
    decide_eq_true_eq, not_and, Option.any_eq_true, Option.bind_eq_some_iff]
  refine forall₃_congr fun claim _ _ => ?_
  constructor
  · intro h id hid source hsource
    exact Bool.eq_false_iff.mpr fun hstale => h ⟨source, ⟨id, hid, hsource⟩, hstale⟩
  · rintro h ⟨source, ⟨id, hid, hsource⟩, hstale⟩
    exact Bool.noConfusion ((h id hid source hsource).symm.trans hstale)

/-- The texts that are scanned: those that are not blank. -/
def PolicyCandidate.scanned (candidate : PolicyCandidate) : List String :=
  ((candidate.visibleText.map (·.text)) ++ candidate.factClaims.map (·.value)).filter fun text =>
    Text.trim text ≠ ""

/-- **The gate of the sensitive words is open** where none is looked for, or none is found. -/
theorem sensitiveWordsGate_eq_none : sensitiveWordsGate host input = .ok none ↔
    input.sensitiveLexicon = [] ∨ input.candidate.scanned = [] ∨
      IsClear host.toScanHost input.sensitiveLexicon ("\n".intercalate input.candidate.scanned) := by
  have hblank : Text.trim (collectCandidateScanText input.candidate) = "" ↔
      input.candidate.scanned = [] := by
    rw [collectCandidateScanText, trim_join, List.eq_nil_iff_forall_not_mem]
    refine forall_congr' fun text => imp_congr_right fun hmem => iff_of_false ?_ ?_
    · exact of_decide_eq_true (List.mem_filter.mp hmem).2
    · exact id
  rw [sensitiveWordsGate, ← hblank]
  split
  · next hlexicon => exact iff_of_true rfl (.inl hlexicon)
  · next hlexicon =>
    rw [or_iff_right hlexicon]
    dsimp only
    split
    · next htext => exact iff_of_true rfl (.inl htext)
    · next htext =>
      rw [or_iff_right htext, ← passed_iff, Effect.bind_eq_ok]
      refine exists_congr fun check => and_congr_right fun _ => ?_
      by_cases hpassed : check.passed = true
      · simp [hpassed, pure, Except.pure]
      · simp [hpassed, pure, Except.pure]

theorem externalRevisionGate_eq_none : externalRevisionGate input = none ↔
    ∃ action, input.actionContext = some action ∧ some action.revision = input.currentRevision := by
  rw [externalRevisionGate]
  simp [Option.any_eq_true]

theorem externalApprovalGate_eq_none {action : PolicyActionContext}
    (h : input.actionContext = some action) : externalApprovalGate input = none ↔
      (action.kind ≠ .export_ → ∃ receipt, input.approvalReceipt = some receipt ∧
        receipt.approves action = true) := by
  rw [externalApprovalGate, h]
  dsimp only
  by_cases hkind : action.kind = .export_
  · simp [hkind]
  · simp [hkind, Option.any_eq_true]

theorem externalFailures_eq_nil : externalFailures input = [] ↔
    (input.phase.isExternal = true → ∃ action, input.GoesOut action) := by
  rw [externalFailures]
  by_cases hphase : input.phase.isExternal = true
  · rw [if_pos hphase, imp_iff_right hphase]
    cases hrevision : externalRevisionGate input with
    | some found =>
      refine iff_of_false nofun fun ⟨action, hout⟩ => ?_
      exact Option.some_ne_none _ (hrevision.symm.trans
        (externalRevisionGate_eq_none.mpr ⟨action, hout.context, hout.revision⟩))
    | none =>
      obtain ⟨action, hcontext, hcurrent⟩ := externalRevisionGate_eq_none.mp hrevision
      rw [Option.toList_eq_nil_iff, externalApprovalGate_eq_none hcontext]
      constructor
      · exact fun happroved => ⟨action, hcontext, hcurrent, happroved⟩
      · rintro ⟨other, hout⟩
        obtain rfl := Option.some.inj (hcontext.symm.trans hout.context)
        exact hout.approved
  · rw [if_neg hphase]
    exact iff_of_true rfl fun h => absurd h hphase

/-- **A candidate passes when no gate stops it.** -/
theorem passes_iff_gates : input.Passes host ↔
    crossWorkspaceGate (input.policyInput host) = none ∧
      criticalFactSourceGate (input.policyInput host) (input.claimExtraction host) = none ∧
      subjectAssetRightsGate (input.policyInput host) = none ∧
      expressionIdentityGate (input.policyInput host) = none ∧
      priceBenefitFreshnessGate host (input.policyInput host) = none ∧
      sensitiveWordsGate host (input.policyInput host) = .ok none ∧
      externalFailures (input.policyInput host) = [] := by
  rw [HarnessPolicyInput.Passes, validateHarnessPolicy]
  cases hwords : sensitiveWordsGate host (input.policyInput host) with
  | error e =>
    refine iff_of_false ?_ fun h => nomatch h.2.2.2.2.2.1
    rintro ⟨result, hresult, -⟩
    simp only [contentPhaseGateIds, List.mapM_cons, contentGate, hwords] at hresult
    exact nomatch hresult
  | ok words =>
    have hfound : contentPhaseGateIds.mapM (contentGate host (input.policyInput host)
        (input.claimExtraction host)) = .ok [crossWorkspaceGate (input.policyInput host),
          criticalFactSourceGate (input.policyInput host) (input.claimExtraction host),
          subjectAssetRightsGate (input.policyInput host),
          expressionIdentityGate (input.policyInput host),
          priceBenefitFreshnessGate host (input.policyInput host), words] := by
      simp only [contentPhaseGateIds, List.mapM_cons, contentGate, hwords]
      rfl
    simp only [hfound]
    constructor
    · rintro ⟨result, hresult, hpassed⟩
      obtain rfl := Except.ok.inj hresult
      have hempty := List.isEmpty_iff.mp hpassed
      rw [List.append_eq_nil_iff, List.filterMap_eq_nil_iff] at hempty
      simpa [and_assoc] using hempty
    · rintro ⟨hcross, hcritical, hrights, hidentity, hfresh, hwords, hexternal⟩
      obtain rfl := Except.ok.inj hwords
      refine ⟨_, rfl, List.isEmpty_iff.mpr ?_⟩
      rw [hcross, hcritical, hrights, hidentity, hfresh, hexternal]
      rfl

/-- **A candidate passes when what a verdict asks for holds.** -/
theorem passes_iff : input.Passes host ↔ input.Cleared host := by
  rw [passes_iff_gates, crossWorkspaceGate_eq_none, criticalFactSourceGate_eq_none,
    subjectAssetRightsGate_eq_none, expressionIdentityGate_eq_none,
    priceBenefitFreshnessGate_eq_none, externalFailures_eq_nil]
  obtain ⟨claims, heq⟩ : ∃ claims, input.policyInput host =
      { input with candidate.factClaims := claims } := ⟨_, policyInput_eq⟩
  constructor
  · intro ⟨⟨hcandidate, hsources, howned, hidentities⟩, hlisted, hrights, hidentity, hfresh,
      hwords, hexternal⟩
    rw [heq] at hcandidate hsources howned hidentities hrights hidentity hexternal
    refine ⟨hcandidate, hsources, howned, hidentities, fun claim hclaim => ⟨fun hkind => ?_, ?_⟩,
      hrights, hidentity, hwords, fun hphase => ?_⟩
    · have hlisted := listedIn_iff.mp (hlisted claim hclaim hkind)
      rwa [heq] at hlisted
    · have hfresh := hfresh claim hclaim
      rwa [heq] at hfresh
    · obtain ⟨action, hcontext, hrevision, happroved⟩ := hexternal hphase
      exact ⟨action, hcontext, hrevision, happroved⟩
  · intro h
    refine ⟨?_, fun claim hclaim hkind => listedIn_iff.mpr ?_, ?_, ?_,
      fun claim hclaim => ?_, h.words, ?_⟩
    · rw [heq]
      exact ⟨h.candidate, h.sources, h.rightsOwned, h.identities⟩
    · rw [heq]
      exact (h.claims claim hclaim).listed hkind
    · rw [heq]
      exact h.rights
    · rw [heq]
      exact h.identity
    · rw [heq]
      exact (h.claims claim hclaim).fresh
    · rw [heq]
      intro hphase
      obtain ⟨action, hcontext, hrevision, happroved⟩ := h.external hphase
      exact ⟨action, hcontext, hrevision, happroved⟩

end Gates

end MeiyeAgent
