import MeiyeAgent.Harness.BillingIdentity

/-!
# Harness/IdentityFacts — what is true of an identity that was built

* `built_iff_exact` — an identity is built from some request exactly when its own facts hold
  together: trimmed texts, one operation at least, a sorted set of carriers.
* `settlementIdempotencyKey_eq`, `workSettlementKey_eq` — the keys of such an identity.
-/

namespace MeiyeAgent

open Effect

/-- A text with no white space around it, and not empty. -/
def IsTrimmed (text : String) : Prop := Text.trim text = text ∧ text ≠ ""

instance : DecidablePred IsTrimmed := fun text =>
  inferInstanceAs (Decidable (Text.trim text = text ∧ text ≠ ""))

theorem isTrimmed_dash : IsTrimmed "-" := by decide

theorem IsTrimmed.isBlank {text : String} (h : IsTrimmed text) : Text.isBlank text = false := by
  rw [Text.isBlank, h.1, beq_eq_false_iff_ne]
  exact h.2

theorem optionalOperation_eq_some {value : Option String} {text : String}
    (h : optionalOperation value = some text) : IsTrimmed text := by
  obtain ⟨hmap, hne⟩ := Option.filter_eq_some_iff.mp h
  obtain ⟨source, -, rfl⟩ := Option.map_eq_some_iff.mp hmap
  exact ⟨Text.trim_trim source, of_decide_eq_true hne⟩

theorem optionalOperation_of_trimmed {text : String} (h : IsTrimmed text) :
    optionalOperation (some text) = some text := by
  rw [optionalOperation, Option.map_some, h.1, Option.filter_some, if_pos (decide_eq_true h.2)]

theorem optionalOperation_eq_self {value : Option String} (h : ∀ text ∈ value, IsTrimmed text) :
    optionalOperation value = value := by
  cases value with
  | none => rfl
  | some text => exact optionalOperation_of_trimmed (h text rfl)

theorem requireText_eq_ok {value : Option String} {message text : String}
    (h : requireText value message = .ok text) : IsTrimmed text := by
  rw [requireText] at h
  split at h
  · next hvalue => exact pure_eq_ok.mp h ▸ optionalOperation_eq_some hvalue
  · exact (throw_ne_ok.mp h).elim

theorem requireText_of_trimmed {text message : String} (h : IsTrimmed text) :
    requireText (some text) message = .ok text := by
  rw [requireText, optionalOperation_of_trimmed h]
  rfl

theorem resolveTypedOperation_eq_ok {field : String} {direct legacy value : Option String}
    (h : resolveTypedOperation field direct legacy = .ok value) : ∀ text ∈ value, IsTrimmed text := by
  rintro text rfl
  rw [resolveTypedOperation] at h
  split at h
  · next d l hdirect hlegacy =>
    split at h
    · exact (throw_ne_ok.mp h).elim
    · exact optionalOperation_eq_some (hdirect.trans (pure_eq_ok.mp h))
  · next d hdirect hlegacy => exact optionalOperation_eq_some (hdirect.trans (pure_eq_ok.mp h))
  · exact optionalOperation_eq_some (pure_eq_ok.mp h)

theorem resolveTypedOperation_of_trimmed {field : String} {value : Option String}
    (h : ∀ text ∈ value, IsTrimmed text) : resolveTypedOperation field value none = .ok value := by
  rw [resolveTypedOperation, optionalOperation_eq_self h]
  cases value <;> rfl

/-! ## Operations -/

/-- **The three operations of an identity.** -/
structure Operations where
  creditHold : Option String
  creditUsage : Option String
  productUsage : Option String
  deriving DecidableEq, Repr

namespace Operations

variable {operations : Operations}

/-- Each is trimmed, and one at least is there. -/
structure Exact (operations : Operations) : Prop where
  creditHold : ∀ text ∈ operations.creditHold, IsTrimmed text
  creditUsage : ∀ text ∈ operations.creditUsage, IsTrimmed text
  productUsage : ∀ text ∈ operations.productUsage, IsTrimmed text
  some : ¬ (operations.creditHold = none ∧ operations.creditUsage = none ∧
    operations.productUsage = none)

def fingerprint (operations : Operations) : String :=
  typedFingerprint operations.creditHold operations.creditUsage operations.productUsage

end Operations

theorem isTrimmed_getD {value : Option String} (h : ∀ text ∈ value, IsTrimmed text) :
    IsTrimmed (value.getD "-") := by
  cases value with
  | none => exact isTrimmed_dash
  | some text => exact h text rfl

/-- The fingerprint ends in its last operation, so trimming leaves it. -/
theorem isTrimmed_fingerprint {operations : Operations} (h : operations.Exact) :
    IsTrimmed operations.fingerprint := by
  have hlast := isTrimmed_getD h.productUsage
  have hsplit : operations.fingerprint = String.ofList ("typed".toList ++
      ('|' :: (operations.creditHold.getD "-").toList ++
        '|' :: (operations.creditUsage.getD "-").toList ++ ['|']) ++
      (operations.productUsage.getD "-").toList) := by
    rw [Operations.fingerprint, typedFingerprint, Text.join]
    simp [Text.joinChars]
  constructor
  · rw [hsplit]
    exact Text.trim_append (by decide) (by decide) hlast.1 hlast.2 _
  · intro hempty
    rw [hsplit] at hempty
    simpa using congrArg String.toList hempty

theorem reservationFingerprint_of_exact {operations : Operations} (h : operations.Exact)
    {reservationId : Option String}
    (hreservation : ∀ text ∈ reservationId, text = operations.fingerprint) :
    reservationFingerprint operations.creditHold operations.creditUsage operations.productUsage
      reservationId = .ok operations.fingerprint := by
  have hlegacy : ∀ text ∈ optionalOperation reservationId, text = operations.fingerprint := by
    rw [optionalOperation_eq_self fun text htext =>
      hreservation text htext ▸ isTrimmed_fingerprint h]
    exact hreservation
  simp only [reservationFingerprint]
  rw [optionalOperation_eq_self h.creditHold, optionalOperation_eq_self h.creditUsage,
    optionalOperation_eq_self h.productUsage, if_neg h.some, if_neg]
  · rfl
  · rw [Option.any_eq_true]
    rintro ⟨text, htext, hne⟩
    exact of_decide_eq_true hne (hlegacy text htext)

/-- A fingerprint of typed operations, whatever reservation was named beside them. -/
theorem reservationFingerprint_eq_ok {operations : Operations} (h : operations.Exact)
    {reservationId : Option String} {fingerprint : String}
    (hok : reservationFingerprint operations.creditHold operations.creditUsage
      operations.productUsage reservationId = .ok fingerprint) :
    fingerprint = operations.fingerprint := by
  simp only [reservationFingerprint] at hok
  rw [optionalOperation_eq_self h.creditHold, optionalOperation_eq_self h.creditUsage,
    optionalOperation_eq_self h.productUsage, if_neg h.some] at hok
  split at hok
  · exact (throw_ne_ok.mp hok).elim
  · exact (pure_eq_ok.mp hok).symm

/-! ## Packages -/

theorem assertPackageBillingForCarrier_perm {packageBilling : ExecutionPlanPackageBilling}
    {carrier : String} {units units' : List String} {billable : Option Int}
    (h : units.Perm units') :
    assertPackageBillingForCarrier packageBilling carrier units billable =
      assertPackageBillingForCarrier packageBilling carrier units' billable := by
  have htrim := h.map Text.trim
  simp only [assertPackageBillingForCarrier, htrim.length_eq, htrim.nodup_iff, htrim.mem_iff]

/-! ## Identities -/

namespace BillingIdentity

variable {identity : BillingIdentity}

def operations (identity : BillingIdentity) : Operations :=
  ⟨identity.creditHoldOperationId, identity.creditUsageOperationId,
    identity.productUsageReservationId⟩

def carrier (identity : BillingIdentity) : String := identity.carrierUnitId.getD ""

def carriers (identity : BillingIdentity) : List String := identity.carrierUnitIds.getD []

/-- The plan the identity names. -/
def plan (identity : BillingIdentity) : BillingPlanSnapshot where
  planId := identity.planId
  planRevision := identity.planRevision
  snapshotHash := identity.snapshotHash
  quoteRef := some identity.quoteRef
  packageBilling := identity.packageBilling

/-- **The facts of an identity hold together.** -/
structure Exact (identity : BillingIdentity) : Prop where
  workspaceId : IsTrimmed identity.workspaceId
  taskId : IsTrimmed identity.taskId
  workId : IsTrimmed identity.workId
  quoteId : Text.isBlank identity.quoteRef.id = false
  operations : identity.operations.Exact
  reservationId : identity.reservationId = identity.operations.fingerprint
  carrierUnitId : identity.carrierUnitId = some identity.carrier
  carrierUnitIds : identity.carrierUnitIds = some identity.carriers
  carriersTrimmed : ∀ unit ∈ identity.carriers, IsTrimmed unit
  carriersSorted : identity.carriers.Pairwise TextLe
  carriersNodup : identity.carriers.Nodup
  carrierMem : identity.carrier ∈ identity.carriers
  billable : identity.carrierBillableUnits.any
    (fun units => isSafeInteger units ∧ 1 ≤ units) = true
  planExact : identity.planId = none ∧ identity.planRevision = none ∧
    identity.snapshotHash = none ∧ identity.packageBilling = none ∨
      planIsExact identity.plan = true
  package : ∀ packageBilling ∈ identity.packageBilling,
    ∃ allocation, assertPackageBillingForCarrier packageBilling identity.carrier identity.carriers
      identity.carrierBillableUnits = .ok allocation

/-- Some request was built into the identity. -/
def Built (identity : BillingIdentity) : Prop :=
  ∃ request workflowId, buildBillingIdentity request workflowId = .ok (some identity)

theorem effectiveQuoteRef_eq_some {request : BillingIdentitySource}
    {snapshot : BillingExecutionSnapshot} {quoteRef : BillingQuoteRef}
    (h : request.effectiveQuoteRef snapshot = some quoteRef) :
    Text.isBlank quoteRef.id = false ∧
      ∀ plan ∈ request.effectivePlan, plan.quoteRef = some quoteRef := by
  rw [BillingIdentitySource.effectiveQuoteRef] at h
  split at h
  · next plan hplan =>
    obtain ⟨hquote, hid⟩ := Option.filter_eq_some_iff.mp h
    refine ⟨by simpa using (of_decide_eq_true hid).1, ?_⟩
    rintro plan' hplan'
    rw [Option.mem_def, hplan] at hplan'
    exact Option.some.inj hplan' ▸ hquote
  · next hplan =>
    obtain ⟨-, hid⟩ := Option.filter_eq_some_iff.mp h
    refine ⟨by simpa using of_decide_eq_true hid, ?_⟩
    rintro plan' hplan'
    exact nomatch hplan.symm.trans hplan'

theorem requireCarriers_eq_ok {request : BillingIdentitySource} {carrier : String}
    {units : List String} (h : requireCarriers request = .ok (carrier, units)) :
    (∀ unit ∈ units, IsTrimmed unit) ∧ units.Nodup ∧ carrier ∈ units := by
  rw [requireCarriers] at h
  split at h
  · next c us hcarrier hunits =>
    split at h
    · exact (throw_ne_ok.mp h).elim
    · next hset =>
      obtain ⟨rfl, rfl⟩ := Prod.mk.inj (pure_eq_ok.mp h)
      simp only [not_or, not_not] at hset
      obtain ⟨-, hempty, hnodup, hmem⟩ := hset
      refine ⟨fun unit hunit => ⟨?_, fun heq => hempty (heq ▸ hunit)⟩, hnodup, hmem⟩
      obtain ⟨source, -, rfl⟩ := Option.map_eq_some_iff.mp hunits
      obtain ⟨text, -, rfl⟩ := List.mem_map.mp hunit
      exact Text.trim_trim text
  · exact (throw_ne_ok.mp h).elim

/-- What is built is exact. -/
theorem exact_of_built (h : Built identity) : identity.Exact := by
  obtain ⟨request, workflowId, hbuild⟩ := h
  rw [buildBillingIdentity] at hbuild
  split at hbuild
  · cases pure_eq_ok.mp hbuild
  · next snapshot hsnapshot =>
    simp only [bind_eq_ok, guard_eq_ok, pure_eq_ok] at hbuild
    obtain ⟨workspaceId, hworkspace, workId, hwork, taskId, htask, quoteRef, hquote, hold, hhold,
      usage, husage, product, hproduct, hsome, fingerprint, hfingerprint, hplan,
      ⟨carrier, units⟩, hcarriers, hbillable, allocation, hallocation, heq⟩ := hbuild
    obtain rfl := Option.some.inj heq
    have hoperations : Operations.Exact ⟨hold, usage, product⟩ :=
      ⟨resolveTypedOperation_eq_ok hhold, resolveTypedOperation_eq_ok husage,
        resolveTypedOperation_eq_ok hproduct, hsome⟩
    obtain ⟨htrimmed, hnodup, hmem⟩ := requireCarriers_eq_ok hcarriers
    have hperm := sortTexts_perm units
    rw [requireQuoteRef] at hquote
    split at hquote
    · next quoteRef' hquoteRef =>
      obtain rfl := pure_eq_ok.mp hquote
      obtain ⟨hid, hplanQuote⟩ := effectiveQuoteRef_eq_some hquoteRef
      exact {
        workspaceId := requireText_eq_ok hworkspace
        taskId := requireText_eq_ok htask
        workId := requireText_eq_ok hwork
        quoteId := hid
        operations := hoperations
        reservationId := reservationFingerprint_eq_ok hoperations hfingerprint
        carrierUnitId := rfl
        carrierUnitIds := rfl
        carriersTrimmed := fun unit hunit => htrimmed unit (hperm.mem_iff.mp hunit)
        carriersSorted := sortTexts_sorted units
        carriersNodup := hperm.nodup_iff.mpr hnodup
        carrierMem := hperm.mem_iff.mpr hmem
        billable := not_not.mp hbillable
        planExact := by
          rcases hnone : request.effectivePlan with _ | plan
          · exact .inl ⟨rfl, rfl, rfl, rfl⟩
          · right
            rw [hnone] at hplan
            have hexact : planIsExact plan = true := by simpa using hplan
            have hsame := hplanQuote plan hnone
            rw [planIsExact, hsame] at hexact
            exact hexact
        package := by
          intro packageBilling hpackage
          have hsome : (request.effectivePlan.bind fun plan => plan.packageBilling) =
              some packageBilling := hpackage
          rw [hsome] at hallocation
          obtain ⟨hnone, -⟩ | ⟨p, a, hp, -, ha⟩ := mapM_eq_ok.mp hallocation
          · cases hnone
          · obtain rfl := Option.some.inj hp
            exact ⟨a, (assertPackageBillingForCarrier_perm hperm).trans ha⟩ }
    · exact (throw_ne_ok.mp hquote).elim

/-- A request that says what the identity says. -/
def source (identity : BillingIdentity) : BillingIdentitySource where
  workspaceId := some identity.workspaceId
  creditHoldOperationId := identity.creditHoldOperationId
  creditUsageOperationId := identity.creditUsageOperationId
  productUsageReservationId := identity.productUsageReservationId
  billingTaskId := some identity.taskId
  carrierUnitId := identity.carrierUnitId
  carrierUnitIds := identity.carrierUnitIds
  carrierBillableUnits := identity.carrierBillableUnits
  executionSnapshot := some ⟨some identity.workId, some identity.quoteRef⟩
  executionPlanSnapshot := if identity.planId.isSome then some identity.plan else none

theorem effectivePlan_source :
    identity.source.effectivePlan = if identity.planId.isSome then some identity.plan else none := by
  rw [BillingIdentitySource.effectivePlan, source]
  split <;> simp_all

theorem isSome_of_planIsExact (h : planIsExact identity.plan = true) :
    identity.planId.isSome = true := by
  obtain ⟨hid, -⟩ := of_decide_eq_true h
  rcases hplan : identity.planId with _ | id
  · have : (optionalOperation identity.planId).isSome = true := hid
    rw [hplan] at this
    exact this
  · rfl

/-- A plan is named with all its facts, or not at all. -/
theorem Exact.plan_cases (h : identity.Exact) :
    identity.planId.isSome = true ∧ planIsExact identity.plan = true ∨
      identity.planId = none ∧ identity.planRevision = none ∧ identity.snapshotHash = none ∧
        identity.packageBilling = none :=
  h.planExact.elim .inr fun hexact => .inl ⟨isSome_of_planIsExact hexact, hexact⟩

theorem requireQuoteRef_source (h : identity.Exact) :
    requireQuoteRef identity.source ⟨some identity.workId, some identity.quoteRef⟩ =
      .ok identity.quoteRef := by
  have hid := h.quoteId
  rw [requireQuoteRef, BillingIdentitySource.effectiveQuoteRef, effectivePlan_source]
  rcases h.plan_cases with ⟨hsome, hexact⟩ | ⟨hnone, -⟩
  · obtain ⟨-, -, -, hquote⟩ := of_decide_eq_true hexact
    have hrevision : Text.isBlank identity.quoteRef.revision = false := by
      simpa [plan, hid] using hquote
    rw [if_pos hsome]
    simp only [plan, Option.filter_some, hid, hrevision]
    rfl
  · rw [hnone, Option.isSome_none, if_neg Bool.false_ne_true]
    simp only [Option.filter_some, hid]
    rfl

theorem map_trim_carriers (h : identity.Exact) :
    identity.carriers.map Text.trim = identity.carriers :=
  List.map_congr_left (fun unit hunit => (h.carriersTrimmed unit hunit).1) |>.trans
    (List.map_id _)

theorem requireCarriers_source (h : identity.Exact) :
    requireCarriers identity.source = .ok (identity.carrier, identity.carriers) := by
  have hempty : "" ∉ identity.carriers := fun hmem => (h.carriersTrimmed "" hmem).2 rfl
  have hne : identity.carriers ≠ [] := List.ne_nil_of_mem h.carrierMem
  rw [requireCarriers, source, h.carrierUnitId, h.carrierUnitIds, Option.map_some, map_trim_carriers h,
    optionalOperation_of_trimmed (h.carriersTrimmed _ h.carrierMem)]
  simp only [hne, hempty, h.carriersNodup, h.carrierMem, not_true_eq_false, or_self, if_false]
  rfl

/-- An exact identity is built from what it says. -/
theorem built_of_exact (h : identity.Exact) : Built identity := by
  have hsnapshot : identity.source.executionSnapshot =
      some ⟨some identity.workId, some identity.quoteRef⟩ := rfl
  have hplan : ¬ identity.source.effectivePlan.any (fun plan => ¬ planIsExact plan) = true ∧
      (identity.source.effectivePlan.bind (·.packageBilling)) = identity.packageBilling ∧
      (identity.source.effectivePlan.bind (·.planId)) = identity.planId ∧
      (identity.source.effectivePlan.bind (·.planRevision)) = identity.planRevision ∧
      (identity.source.effectivePlan.bind (·.snapshotHash)) = identity.snapshotHash := by
    rw [effectivePlan_source]
    rcases h.plan_cases with ⟨hsome, hexact⟩ | ⟨hid, hrevision, hhash, hpackage⟩
    · rw [if_pos hsome]
      exact ⟨by simp [hexact], rfl, rfl, rfl, rfl⟩
    · rw [hid, hrevision, hhash, hpackage, Option.isSome_none, if_neg Bool.false_ne_true]
      exact ⟨by rintro ⟨⟩, rfl, rfl, rfl, rfl⟩
  obtain ⟨hexact, hpackage, hid, hrevision, hhash⟩ := hplan
  obtain ⟨allocation, hallocation⟩ : ∃ allocation, (identity.packageBilling.mapM
      fun packageBilling => assertPackageBillingForCarrier packageBilling identity.carrier
        identity.carriers identity.carrierBillableUnits) = .ok allocation := by
    rcases hnone : identity.packageBilling with _ | packageBilling
    · exact ⟨none, rfl⟩
    · obtain ⟨allocation, hok⟩ := h.package packageBilling hnone
      exact ⟨some allocation, mapM_eq_ok.mpr (.inr ⟨_, _, rfl, rfl, hok⟩)⟩
  refine ⟨identity.source, identity.workflowId, ?_⟩
  rw [buildBillingIdentity, hsnapshot]
  simp only [bind_eq_ok, guard_eq_ok, pure_eq_ok, hpackage, hid, hrevision, hhash]
  refine ⟨_, requireText_of_trimmed h.workspaceId, _, requireText_of_trimmed h.workId, _,
    requireText_of_trimmed h.taskId, _, requireQuoteRef_source h, _,
    resolveTypedOperation_of_trimmed h.operations.creditHold, _,
    resolveTypedOperation_of_trimmed h.operations.creditUsage, _,
    resolveTypedOperation_of_trimmed h.operations.productUsage, h.operations.some, _,
    reservationFingerprint_of_exact h.operations (by rintro _ ⟨⟩), hexact, _,
    requireCarriers_source h, not_not.mpr h.billable, allocation, hallocation, ?_⟩
  rw [sortTexts_of_sorted h.carriersSorted, ← h.carrierUnitIds, ← h.carrierUnitId,
    ← h.reservationId]
  rfl

/-- **Built and exact are one.** -/
theorem built_iff_exact : Built identity ↔ identity.Exact := ⟨exact_of_built, built_of_exact⟩

/-! ## Keys -/

/-- The key of one carrier unit, of any identity that has one. -/
theorem settlementIdempotencyKey_eq_ok {key : String} :
    identity.settlementIdempotencyKey = .ok key ↔ ∃ carrier fingerprint package,
      optionalOperation identity.carrierUnitId = some carrier ∧
      identity.billingIdentityReservationFingerprint = .ok fingerprint ∧
      identity.packageFacts = .ok package ∧
      "billing-unit:" ++ Text.join ':' (([identity.workspaceId, identity.workId,
        identity.quoteRef.id, identity.quoteRef.revision, fingerprint, carrier] ++
          package).map Base64.base64) = key := by
  rw [settlementIdempotencyKey]
  cases optionalOperation identity.carrierUnitId with
  | none => simp
  | some carrier => simp

/-- **The key of a carrier unit tells the workspace.** -/
theorem workspaceId_of_key {other : BillingIdentity} {key : String}
    (h : identity.settlementIdempotencyKey = .ok key)
    (h' : other.settlementIdempotencyKey = .ok key) : identity.workspaceId = other.workspaceId := by
  obtain ⟨carrier, fingerprint, package, -, -, -, rfl⟩ := settlementIdempotencyKey_eq_ok.mp h
  obtain ⟨carrier', fingerprint', package', -, -, -, heq⟩ := settlementIdempotencyKey_eq_ok.mp h'
  have hfacts := (Base64.join_map_base64_inj (List.cons_ne_nil _ _) (List.cons_ne_nil _ _)).mp
    (String.append_right_inj _ |>.mp heq)
  exact (List.cons.inj hfacts).1.symm

theorem billingIdentityReservationFingerprint_eq (h : identity.Exact) :
    identity.billingIdentityReservationFingerprint = .ok identity.operations.fingerprint := by
  refine reservationFingerprint_of_exact h.operations fun text htext => ?_
  exact (Option.some.inj htext).symm.trans h.reservationId

/-- The contract and the allocation a package adds to a key. -/
def packageKey (identity : BillingIdentity) : List String :=
  match identity.packageFacts with
  | .ok facts => facts
  | .error _ => []

/-- What the key of one carrier unit is made of. -/
def unitFacts (identity : BillingIdentity) : List String :=
  [identity.workspaceId, identity.workId, identity.quoteRef.id, identity.quoteRef.revision,
    identity.operations.fingerprint, identity.carrier] ++ identity.packageKey

/-- What the key of the whole work is made of. -/
def workFacts (identity : BillingIdentity) : List String :=
  [identity.workspaceId, identity.taskId, identity.workId, identity.quoteRef.id,
    identity.quoteRef.revision, identity.operations.fingerprint] ++ identity.carriers ++
    (identity.packageBilling.map (·.contractHash)).toList

/-- The allocation of an identity with a package. -/
theorem billingPackageAllocation_eq (h : identity.Exact)
    {packageBilling : ExecutionPlanPackageBilling}
    (hpackage : identity.packageBilling = some packageBilling) :
    ∃ allocation, identity.billingPackageAllocation = .ok (some allocation) := by
  obtain ⟨allocation, hok⟩ := h.package packageBilling hpackage
  refine ⟨allocation, ?_⟩
  rw [billingPackageAllocation, hpackage, h.carrierUnitId, h.carrierUnitIds,
    optionalOperation_of_trimmed (h.carriersTrimmed _ h.carrierMem)]
  simp only [map_trim_carriers h, hok]
  rfl

theorem packageFacts_eq (h : identity.Exact) :
    identity.packageFacts = .ok identity.packageKey := by
  have hok : ∃ facts, identity.packageFacts = .ok facts := by
    rw [packageFacts]
    rcases hpackage : identity.packageBilling with _ | packageBilling
    · exact ⟨[], rfl⟩
    · obtain ⟨allocation, hallocation⟩ := billingPackageAllocation_eq h hpackage
      simp only [hallocation]
      exact ⟨_, rfl⟩
  obtain ⟨facts, hfacts⟩ := hok
  rw [packageKey, hfacts]

theorem settlementIdempotencyKey_eq (h : identity.Exact) : identity.settlementIdempotencyKey =
    .ok ("billing-unit:" ++ Text.join ':' (identity.unitFacts.map Base64.base64)) := by
  rw [settlementIdempotencyKey, h.carrierUnitId,
    optionalOperation_of_trimmed (h.carriersTrimmed _ h.carrierMem)]
  simp only [billingIdentityReservationFingerprint_eq h, packageFacts_eq h]
  rfl

theorem frozenCarrierUnits_eq (h : identity.Exact) :
    identity.frozenCarrierUnits = .ok identity.carriers := by
  have hempty : "" ∉ identity.carriers := fun hmem => (h.carriersTrimmed "" hmem).2 rfl
  have hne : identity.carriers ≠ [] := List.ne_nil_of_mem h.carrierMem
  rw [frozenCarrierUnits, h.carrierUnitId, h.carrierUnitIds, Option.map_some, map_trim_carriers h,
    optionalOperation_of_trimmed (h.carriersTrimmed _ h.carrierMem)]
  simp only [hne, hempty, h.carriersNodup, h.carrierMem, not_true_eq_false, or_self, if_false,
    sortTexts_of_sorted h.carriersSorted]
  rfl

/-- A package that was checked names its contract. -/
theorem contractHash_ne_empty {packageBilling : ExecutionPlanPackageBilling} {carrier : String}
    {units : List String} {billable : Option Int} {allocation : ExecutionPlanPackageBillingAllocation}
    (h : assertPackageBillingForCarrier packageBilling carrier units billable = .ok allocation) :
    packageBilling.contractHash ≠ "" := by
  intro hempty
  rw [assertPackageBillingForCarrier, parsePackageBilling, hempty] at h
  exact throw_ne_ok.mp h

theorem workSettlementKey_eq (h : identity.Exact) : identity.workSettlementKey =
    .ok ("billing-work:" ++ Text.join ':' (identity.workFacts.map Base64.base64)) := by
  rw [workSettlementKey, frozenCarrierUnits_eq h, billingIdentityReservationFingerprint_eq h,
    workFacts]
  rcases hpackage : identity.packageBilling with _ | packageBilling
  · rw [billingPackageAllocation, hpackage]
    rfl
  · obtain ⟨allocation, hok⟩ := billingPackageAllocation_eq h hpackage
    obtain ⟨_, hchecked⟩ := h.package packageBilling hpackage
    rw [hok, Option.map_some, Option.filter_some, if_pos (decide_eq_true
      (contractHash_ne_empty hchecked))]
    rfl

end BillingIdentity

end MeiyeAgent
