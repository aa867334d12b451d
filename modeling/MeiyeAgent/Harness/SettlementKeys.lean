import MeiyeAgent.Harness.IdentityFacts
import MeiyeAgent.Machinery.Cuts
import MeiyeAgent.Machinery.Table

/-!
# Harness/SettlementKeys — what a settlement key tells of its identity

A key joins encoded facts with colons, and the encoding holds no colon; so the facts are read back.
Two of them do not say all: the operations are joined with a bar that an operation may hold, an
absent one as a dash that may be an operation's own text; and a contract stands behind the carriers
as one more carrier would.

* `ReadsOneWay`, `TailReadsOneWay` — the identities on which neither happens.
* `keys_identify` — **these are the identities whose keys no other identity has**.
-/

namespace MeiyeAgent

open Effect

/-! ## Operations -/

namespace Operations

variable {operations other : Operations}

/-- The operations as they are written: an absent one is a dash. -/
def texts (operations : Operations) : List String :=
  [operations.creditHold.getD "-", operations.creditUsage.getD "-",
    operations.productUsage.getD "-"]

theorem fingerprint_eq_iff :
    operations.fingerprint = other.fingerprint ↔
      Text.join '|' operations.texts = Text.join '|' other.texts := by
  have hcons : ∀ o : Operations, o.fingerprint =
      String.ofList ("typed|".toList ++ (Text.join '|' o.texts).toList) := by
    intro o
    rw [fingerprint, typedFingerprint, Text.join, Text.join, texts, String.toList_ofList]
    simp [Text.joinChars]
  rw [hcons, hcons, String.ofList_inj, List.append_cancel_left_eq, String.toList_inj]

/-- **The operations are read one way**: each is there and none is a dash, and a bar in one of them
has white space beside it, or is the first or the last letter of the three, or the whole of the
second. -/
structure ReadsOneWay (operations : Operations) : Prop where
  present : ∀ operation ∈ [operations.creditHold, operations.creditUsage,
    operations.productUsage], operation.isSome = true ∧ operation ≠ some "-"
  cut : Cuts.OneWay Text.isSpace '|' (operations.creditHold.getD "-").toList
    (operations.creditUsage.getD "-").toList (operations.productUsage.getD "-").toList

variable {text : String}

theorem isTrimmed_iff : IsTrimmed text ↔ Cuts.Trimmed Text.isSpace text.toList := by
  rw [IsTrimmed, Text.trim_eq_self_iff, ne_eq, ← String.toList_eq_nil_iff]
  exact ⟨fun h => ⟨h.2, h.1.1, h.1.2⟩, fun h => ⟨⟨h.head, h.last⟩, h.ne_nil⟩⟩

/-- Three trimmed texts are cut one way when no other three join to the same. -/
theorem oneWay_iff {a b c : String} (ha : IsTrimmed a) (hb : IsTrimmed b) (hc : IsTrimmed c) :
    Cuts.OneWay Text.isSpace '|' a.toList b.toList c.toList ↔
      ∀ x y z : String, IsTrimmed x → IsTrimmed y → IsTrimmed z →
        Text.join '|' [x, y, z] = Text.join '|' [a, b, c] → x = a ∧ y = b ∧ z = c := by
  have hjoin : ∀ x y z : String, (Text.join '|' [x, y, z]).toList =
      x.toList ++ '|' :: (y.toList ++ '|' :: z.toList) := fun _ _ _ => String.toList_ofList
  rw [Cuts.oneWay_iff rfl (isTrimmed_iff.mp ha) (isTrimmed_iff.mp hb) (isTrimmed_iff.mp hc)]
  constructor
  · intro h x y z hx hy hz heq
    rw [← String.toList_inj, hjoin, hjoin] at heq
    simpa only [String.toList_inj] using h _ _ _ (isTrimmed_iff.mp hx) (isTrimmed_iff.mp hy)
      (isTrimmed_iff.mp hz) heq
  · intro h x y z hx hy hz heq
    have hlist : ∀ l, Cuts.Trimmed Text.isSpace l → IsTrimmed (String.ofList l) := fun l hl =>
      isTrimmed_iff.mpr (by rwa [String.toList_ofList])
    obtain ⟨rfl, rfl, rfl⟩ := h _ _ _ (hlist x hx) (hlist y hy) (hlist z hz) (by
      rw [← String.toList_inj, hjoin, hjoin]
      simpa only [String.toList_ofList] using heq)
    simp only [String.toList_ofList, and_self]

/-- Three trimmed texts, each an operation. -/
theorem exact_of_some {a b c : String} (ha : IsTrimmed a) (hb : IsTrimmed b) (hc : IsTrimmed c) :
    Exact ⟨some a, some b, some c⟩ where
  creditHold _ h := Option.some.inj h ▸ ha
  creditUsage _ h := Option.some.inj h ▸ hb
  productUsage _ h := Option.some.inj h ▸ hc
  some h := nomatch h.1

/-- **No other operations have the fingerprint** exactly when these are read one way. -/
theorem fingerprint_identifies_iff (h : operations.Exact) :
    (∀ other : Operations, other.Exact → operations.fingerprint = other.fingerprint →
      operations = other) ↔ operations.ReadsOneWay := by
  obtain ⟨hold, usage, product⟩ := operations
  constructor
  · intro hunique
    -- the same text with every operation there
    have hsome := hunique ⟨some (hold.getD "-"), some (usage.getD "-"), some (product.getD "-")⟩
      (exact_of_some (isTrimmed_getD h.creditHold) (isTrimmed_getD h.creditUsage)
        (isTrimmed_getD h.productUsage)) rfl
    obtain ⟨hhold, husage, hproduct⟩ := Operations.mk.inj hsome
    refine ⟨?_, ?_⟩
    · intro operation hoperation
      simp only [List.mem_cons, List.not_mem_nil, or_false] at hoperation
      -- a dash is the same text as none
      have hdash : ∀ other : Operations, other.Exact → fingerprint ⟨hold, usage, product⟩ =
          other.fingerprint → ⟨hold, usage, product⟩ = other := hunique
      obtain rfl | rfl | rfl := hoperation
      · refine ⟨hhold ▸ rfl, fun heq => ?_⟩
        have hnone := hdash ⟨none, usage, product⟩ ⟨nofun, h.creditUsage, h.productUsage,
          fun hno => nomatch husage.symm.trans hno.2.1⟩ (by rw [heq]; rfl)
        exact nomatch hhold.symm.trans (congrArg creditHold hnone)
      · refine ⟨husage ▸ rfl, fun heq => ?_⟩
        have hnone := hdash ⟨hold, none, product⟩ ⟨h.creditHold, nofun, h.productUsage,
          fun hno => nomatch hhold.symm.trans hno.1⟩ (by rw [heq]; rfl)
        exact nomatch husage.symm.trans (congrArg creditUsage hnone)
      · refine ⟨hproduct ▸ rfl, fun heq => ?_⟩
        have hnone := hdash ⟨hold, usage, none⟩ ⟨h.creditHold, h.creditUsage, nofun,
          fun hno => nomatch hhold.symm.trans hno.1⟩ (by rw [heq]; rfl)
        exact nomatch hproduct.symm.trans (congrArg productUsage hnone)
    · rw [oneWay_iff (isTrimmed_getD h.creditHold) (isTrimmed_getD h.creditUsage)
        (isTrimmed_getD h.productUsage)]
      intro x y z hx hy hz hjoin
      obtain ⟨rfl, rfl, rfl⟩ := Operations.mk.inj (hunique ⟨some x, some y, some z⟩
        (exact_of_some hx hy hz) (fingerprint_eq_iff.mpr hjoin.symm))
      exact ⟨rfl, rfl, rfl⟩
  · rintro ⟨hpresent, hcut⟩ ⟨hold', usage', product'⟩ hother heq
    rw [oneWay_iff (isTrimmed_getD h.creditHold) (isTrimmed_getD h.creditUsage)
      (isTrimmed_getD h.productUsage)] at hcut
    obtain ⟨h1, h2, h3⟩ := hcut _ _ _ (isTrimmed_getD hother.creditHold)
      (isTrimmed_getD hother.creditUsage) (isTrimmed_getD hother.productUsage)
      (fingerprint_eq_iff.mp heq).symm
    have hfield : ∀ {operation operation' : Option String},
        operation.isSome = true ∧ operation ≠ some "-" →
          operation'.getD "-" = operation.getD "-" → operation = operation' := by
      intro operation operation' hop hgetD
      cases operation <;> cases operation' <;> simp_all
    rw [hfield (hpresent hold (by simp)) h1, hfield (hpresent usage (by simp)) h2,
      hfield (hpresent product (by simp)) h3]

end Operations

/-! ## Parsed packages -/

theorem parseText_eq_some {most : Nat} {source : String} (h : parseText most source = some text) :
    text = Text.trim source ∧ IsTrimmed text ∧ (codeUnits text).length ≤ most := by
  obtain ⟨hsource, hkept⟩ := Option.filter_eq_some_iff.mp h
  obtain ⟨hne, hle⟩ := of_decide_eq_true hkept
  obtain rfl := Option.some.inj hsource
  exact ⟨rfl, ⟨Text.trim_trim source, hne⟩, hle⟩

theorem parseText_of_trimmed {most : Nat} (h : IsTrimmed text)
    (hle : (codeUnits text).length ≤ most) : parseText most text = some text := by
  rw [parseText, h.1, Option.filter_some, if_pos (decide_eq_true ⟨h.2, hle⟩)]

/-- What a mapping answers, it answers of an element. -/
theorem mem_of_mapM_eq_some {α β : Type} {f : α → Option β} {b : β} : ∀ {l : List α} {r : List β},
    l.mapM f = some r → b ∈ r → ∃ a ∈ l, f a = some b
  | [], r, h, hb => by
    rw [List.mapM_nil, Option.pure_def, Option.some.injEq] at h
    exact absurd (h ▸ hb) List.not_mem_nil
  | a :: l, r, h, hb => by
    simp only [List.mapM_cons, Option.bind_eq_bind, Option.bind_eq_some_iff, Option.pure_def,
      Option.some.injEq] at h
    obtain ⟨b', hb', bs, hbs, rfl⟩ := h
    obtain rfl | hmem := List.mem_cons.mp hb
    · exact ⟨a, List.mem_cons_self, hb'⟩
    · obtain ⟨a', ha', hf⟩ := mem_of_mapM_eq_some hbs hmem
      exact ⟨a', List.mem_cons_of_mem a ha', hf⟩

theorem mapM_eq_some_map {α β : Type} {f : α → Option β} {g : α → β} : ∀ {l : List α},
    (∀ a ∈ l, f a = some (g a)) → l.mapM f = some (l.map g)
  | [], _ => rfl
  | a :: l, h => by
    rw [List.mapM_cons, h a List.mem_cons_self,
      mapM_eq_some_map fun b hb => h b (List.mem_cons_of_mem a hb)]
    rfl

theorem parseAllocation_carrier {allocation parsed : ExecutionPlanPackageBillingAllocation}
    (h : parseAllocation allocation = some parsed) :
    (codeUnits parsed.carrierUnitId).length ≤ 200 := by
  rw [parseAllocation] at h
  simp only [Option.bind_eq_bind, Option.bind_eq_some_iff, Option.pure_def,
    Option.some.injEq] at h
  obtain ⟨carrier, hcarrier, _, -, _, -, _, -, _, -, _, -, _, -, _, -, _, -, _, -, rfl⟩ := h
  exact (parseText_eq_some hcarrier).2.2

variable {carrier : String} {units : List String}

/-- **A package that was checked** has an allocation for each carrier, fifty at most, and texts of
bounded length. -/
theorem package_bounds {packageBilling : ExecutionPlanPackageBilling} {billable : Option Int}
    {allocation : ExecutionPlanPackageBillingAllocation} (hunits : units.map Text.trim = units)
    (h : assertPackageBillingForCarrier packageBilling carrier units billable = .ok allocation) :
    (codeUnits (Text.trim packageBilling.contractHash)).length ≤ 128 ∧ units.length ≤ 50 ∧
      ∀ unit ∈ units, (codeUnits unit).length ≤ 200 := by
  rw [assertPackageBillingForCarrier] at h
  split at h
  · exact (throw_ne_ok.mp h).elim
  · next parsed hparsed =>
    rw [parsePackageBilling] at hparsed
    simp only [Option.bind_eq_bind, Option.bind_eq_some_iff, Option.pure_def, Option.guard_eq_some',
      exists_const, Option.some.injEq] at hparsed
    obtain ⟨contractHash, hhash, allocations, hallocations, ⟨-, hfifty⟩, -, -, rfl⟩ := hparsed
    simp only [hunits] at h
    split at h
    · next found hfound =>
      obtain ⟨-, hkept⟩ := Option.filter_eq_some_iff.mp hfound
      obtain ⟨hlength, -, hall, -⟩ := of_decide_eq_true hkept
      obtain ⟨htrim, -, hle⟩ := parseText_eq_some hhash
      refine ⟨htrim ▸ hle, hlength ▸ hfifty, fun unit hunit => ?_⟩
      obtain ⟨a, ha⟩ := Option.isSome_iff_exists.mp (hall unit hunit)
      have hunitId : a.carrierUnitId = unit := by simpa using List.find?_some ha
      obtain ⟨source, -, hsource⟩ :=
        mem_of_mapM_eq_some hallocations (List.mem_of_find?_eq_some ha)
      exact hunitId ▸ parseAllocation_carrier hsource
    · exact (throw_ne_ok.mp h).elim

/-- An allocation of one unit of copy. -/
def copyAllocation (carrier : String) : ExecutionPlanPackageBillingAllocation where
  carrierUnitId := carrier
  allocationId := carrier
  carrier := .copy
  deliveryUnits := 1
  creditCost := 0
  failureRefundsCredits := true
  operation := "copy"
  catalogModel := ⟨"model", "1"⟩
  routeSnapshotRef := "route"
  rightsRevisionRefs := ["rights"]

theorem parseAllocation_copy (h : IsTrimmed carrier) (hle : (codeUnits carrier).length ≤ 200) :
    parseAllocation (copyAllocation carrier) = some (copyAllocation carrier) := by
  rw [parseAllocation]
  simp only [copyAllocation, parseText_of_trimmed h hle]
  rfl

variable {contractHash : String}

/-- Any carriers of bounded length make a package. -/
theorem assertPackageBilling_copy (hhash : IsTrimmed contractHash)
    (hlength : (codeUnits contractHash).length ≤ 128)
    (hunits : ∀ unit ∈ units, IsTrimmed unit ∧ (codeUnits unit).length ≤ 200) (hnodup : units.Nodup)
    (hfifty : units.length ≤ 50) (hmem : carrier ∈ units) :
    assertPackageBillingForCarrier ⟨contractHash, units.map copyAllocation⟩ carrier units (some 1) =
      .ok (copyAllocation carrier) := by
  have hmapM : (units.map copyAllocation).mapM parseAllocation =
      some ((units.map copyAllocation).map id) := by
    refine mapM_eq_some_map fun allocation hallocation => ?_
    obtain ⟨unit, hunit, rfl⟩ := List.mem_map.mp hallocation
    exact parseAllocation_copy (hunits unit hunit).1 (hunits unit hunit).2
  have hids : (units.map copyAllocation).map (·.allocationId) = units := by
    rw [List.map_map]
    exact List.map_id _
  have hcarriers : (units.map copyAllocation).map (·.carrierUnitId) = units := by
    rw [List.map_map]
    exact List.map_id _
  have hne : 1 ≤ units.length := List.length_pos_of_mem hmem
  have hparse : parsePackageBilling ⟨contractHash, units.map copyAllocation⟩ =
      some ⟨contractHash, units.map copyAllocation⟩ := by
    rw [parsePackageBilling, parseText_of_trimmed hhash hlength]
    simp only [hmapM, List.map_id_fun, id_eq, hids, hcarriers, List.length_map, Option.bind_eq_bind,
      Option.bind_some, hnodup, hne, hfifty]
    rfl
  have hfind : ∀ unit ∈ units, (units.map copyAllocation).find? (·.carrierUnitId = unit) =
      some (copyAllocation unit) := by
    intro unit hunit
    have hnodup : ((units.map copyAllocation).map (·.carrierUnitId)).Nodup := by rwa [hcarriers]
    refine Table.find?_of_nodup hnodup (List.mem_map_of_mem hunit) fun allocation _ => ?_
    simp [copyAllocation]
  have htrim : units.map Text.trim = units :=
    (List.map_congr_left fun unit hunit => (hunits unit hunit).1.1).trans (List.map_id _)
  have hall : ∀ unit ∈ units,
      ((units.map copyAllocation).find? (·.carrierUnitId = unit)).isSome = true :=
    fun unit hunit => by rw [hfind unit hunit, Option.isSome_some]
  rw [assertPackageBillingForCarrier, hparse]
  simp only [htrim, hfind carrier hmem, List.length_map, Option.filter_some]
  rw [if_pos (decide_eq_true ⟨trivial, hnodup, hall, rfl⟩)]
  rfl

/-! ## Keys -/

namespace BillingIdentity

variable {identity other : BillingIdentity}

/-- The facts the key of a carrier unit stands for. -/
structure SameUnitFacts (identity other : BillingIdentity) : Prop where
  workspaceId : identity.workspaceId = other.workspaceId
  workId : identity.workId = other.workId
  quoteRef : identity.quoteRef = other.quoteRef
  operations : identity.operations = other.operations
  carrierUnitId : identity.carrierUnitId = other.carrierUnitId
  package : identity.packageFacts = other.packageFacts

/-- The facts the key of a work stands for. -/
structure SameWorkFacts (identity other : BillingIdentity) : Prop where
  workspaceId : identity.workspaceId = other.workspaceId
  taskId : identity.taskId = other.taskId
  workId : identity.workId = other.workId
  quoteRef : identity.quoteRef = other.quoteRef
  operations : identity.operations = other.operations
  carrierUnitIds : identity.carrierUnitIds = other.carrierUnitIds
  contractHash : identity.packageBilling.map (·.contractHash) =
    other.packageBilling.map (·.contractHash)

/-- **The carriers and the contract are read one way**: the contract would not sort behind the
carriers as one of them, and no last carrier could be the contract of a package of the others. -/
def TailReadsOneWay (identity : BillingIdentity) : Prop :=
  match identity.packageBilling with
  | some packageBilling =>
    ¬ (Text.trim packageBilling.contractHash = packageBilling.contractHash ∧
      ∀ unit ∈ identity.carriers, codeUnits unit < codeUnits packageBilling.contractHash)
  | none =>
    ¬ (2 ≤ identity.carriers.length ∧ identity.carriers.length ≤ 51 ∧
      (∀ unit ∈ identity.carriers.dropLast, (codeUnits unit).length ≤ 200) ∧
      (∀ unit ∈ identity.carriers.getLast?, (codeUnits unit).length ≤ 128) ∧
      Text.isBlank identity.quoteRef.revision = false)

theorem settlementIdempotencyKey_eq_iff (h : identity.Exact) (h' : other.Exact) :
    identity.settlementIdempotencyKey = other.settlementIdempotencyKey ↔
      identity.unitFacts = other.unitFacts := by
  rw [settlementIdempotencyKey_eq h, settlementIdempotencyKey_eq h', Except.ok.injEq,
    String.append_right_inj]
  exact Base64.join_map_base64_inj (List.cons_ne_nil _ _) (List.cons_ne_nil _ _)

theorem workSettlementKey_eq_iff (h : identity.Exact) (h' : other.Exact) :
    identity.workSettlementKey = other.workSettlementKey ↔
      identity.workFacts = other.workFacts := by
  rw [workSettlementKey_eq h, workSettlementKey_eq h', Except.ok.injEq, String.append_right_inj]
  exact Base64.join_map_base64_inj (List.cons_ne_nil _ _) (List.cons_ne_nil _ _)

/-- The identity under other operations of the same fingerprint. -/
def withOperations (identity : BillingIdentity) (operations : Operations) : BillingIdentity :=
  { identity with
    creditHoldOperationId := operations.creditHold
    creditUsageOperationId := operations.creditUsage
    productUsageReservationId := operations.productUsage }

theorem exact_withOperations (h : identity.Exact) {operations : Operations}
    (hexact : operations.Exact) (heq : identity.operations.fingerprint = operations.fingerprint) :
    (identity.withOperations operations).Exact :=
  { h with
    operations := hexact
    reservationId := h.reservationId.trans heq }

/-- **What identifies the operations**: the keys that no identity under other operations shares. -/
theorem readsOneWay_of_identifies (h : identity.Exact)
    (hunique : ∀ operations : Operations, operations.Exact →
      identity.operations.fingerprint = operations.fingerprint →
        identity.operations = (identity.withOperations operations).operations) :
    identity.operations.ReadsOneWay :=
  (Operations.fingerprint_identifies_iff h.operations).mp hunique

theorem fingerprint_identifies (h : identity.Exact) :
    (∀ other : BillingIdentity, Built other → identity.billingIdentityReservationFingerprint =
      other.billingIdentityReservationFingerprint → identity.operations = other.operations) ↔
      identity.operations.ReadsOneWay := by
  constructor
  · intro hunique
    refine readsOneWay_of_identifies h fun operations hexact heq => ?_
    have hother := exact_withOperations h hexact heq
    refine hunique _ (built_of_exact hother) ?_
    rw [billingIdentityReservationFingerprint_eq h, billingIdentityReservationFingerprint_eq hother]
    exact congrArg _ heq
  · intro hreads other hother heq
    have hexact := exact_of_built hother
    rw [billingIdentityReservationFingerprint_eq h, billingIdentityReservationFingerprint_eq hexact,
      Except.ok.injEq] at heq
    exact (Operations.fingerprint_identifies_iff h.operations).mpr hreads _ hexact.operations heq

theorem unitKey_identifies (h : identity.Exact) :
    (∀ other : BillingIdentity, Built other → identity.settlementIdempotencyKey =
      other.settlementIdempotencyKey → SameUnitFacts identity other) ↔
      identity.operations.ReadsOneWay := by
  constructor
  · intro hunique
    refine readsOneWay_of_identifies h fun operations hexact heq => ?_
    have hother := exact_withOperations h hexact heq
    refine (hunique _ (built_of_exact hother) ?_).operations
    rw [settlementIdempotencyKey_eq_iff h hother, unitFacts, heq]
    rfl
  · intro hreads other hother heq
    have hexact := exact_of_built hother
    rw [settlementIdempotencyKey_eq_iff h hexact, unitFacts, unitFacts] at heq
    simp only [List.cons_append, List.nil_append, List.cons.injEq] at heq
    obtain ⟨hworkspace, hwork, hid, hrevision, hfingerprint, hcarrier, hpackage⟩ := heq
    exact {
      workspaceId := hworkspace
      workId := hwork
      quoteRef := by
        rw [← show (⟨identity.quoteRef.id, identity.quoteRef.revision⟩ : BillingQuoteRef) =
          identity.quoteRef from rfl, hid, hrevision]
      operations := (Operations.fingerprint_identifies_iff h.operations).mpr hreads _
        hexact.operations hfingerprint
      carrierUnitId := by rw [h.carrierUnitId, hexact.carrierUnitId, hcarrier]
      package := by rw [packageFacts_eq h, packageFacts_eq hexact, hpackage] }

/-- The identity with the contract of its package as a last carrier. -/
def contractAsCarrier (identity : BillingIdentity) (contractHash : String) : BillingIdentity :=
  { identity with
    packageBilling := none
    carrierUnitIds := some (identity.carriers ++ [contractHash]) }

theorem exact_contractAsCarrier (h : identity.Exact) (htrimmed : IsTrimmed contractHash)
    (hlast : ∀ unit ∈ identity.carriers, codeUnits unit < codeUnits contractHash) :
    (identity.contractAsCarrier contractHash).Exact :=
  { h with
    carrierUnitIds := rfl
    carriersTrimmed := by
      intro unit hunit
      obtain hmem | hmem := List.mem_append.mp hunit
      · exact h.carriersTrimmed unit hmem
      · exact List.mem_singleton.mp hmem ▸ htrimmed
    carriersSorted := List.pairwise_append.mpr ⟨h.carriersSorted, List.pairwise_singleton _ _,
      fun unit hunit unit' hunit' => List.mem_singleton.mp hunit' ▸ (hlast unit hunit).le⟩
    carriersNodup := List.nodup_append.mpr ⟨h.carriersNodup, List.nodup_singleton _,
      fun unit hunit unit' hunit' heq => by
        have hlt := hlast unit hunit
        rw [heq, List.mem_singleton.mp hunit'] at hlt
        exact lt_irrefl _ hlt⟩
    carrierMem := List.mem_append_left _ h.carrierMem
    planExact := h.planExact.imp (fun hnone => ⟨hnone.1, hnone.2.1, hnone.2.2.1, rfl⟩) id
    package := nofun }

/-- The identity with its last carrier as the contract of a package of the others. -/
def carrierAsContract (identity : BillingIdentity) (carriers : List String)
    (carrier contractHash : String) : BillingIdentity :=
  { identity with
    packageBilling := some ⟨contractHash, carriers.map copyAllocation⟩
    carrierUnitId := some carrier
    carrierUnitIds := some carriers
    carrierBillableUnits := some 1
    planId := some "plan"
    planRevision := some 1
    snapshotHash := some "snapshot" }

theorem exact_carrierAsContract (h : identity.Exact) {carriers : List String}
    (hcarriers : identity.carriers = carriers ++ [contractHash]) (hmem : carrier ∈ carriers)
    (hfifty : carriers.length ≤ 50) (hunits : ∀ unit ∈ carriers, (codeUnits unit).length ≤ 200)
    (hhash : (codeUnits contractHash).length ≤ 128)
    (hrevision : Text.isBlank identity.quoteRef.revision = false) :
    (identity.carrierAsContract carriers carrier contractHash).Exact := by
  have htrimmed := h.carriersTrimmed
  have hsorted := h.carriersSorted
  have hnodup := h.carriersNodup
  rw [hcarriers] at htrimmed hsorted hnodup
  have hnodup' := (List.nodup_append.mp hnodup).1
  have htrimmed' : ∀ unit ∈ carriers, IsTrimmed unit :=
    fun unit hunit => htrimmed unit (List.mem_append_left _ hunit)
  exact { h with
    carrierUnitId := rfl
    carrierUnitIds := rfl
    carriersTrimmed := htrimmed'
    carriersSorted := (List.pairwise_append.mp hsorted).1
    carriersNodup := hnodup'
    carrierMem := hmem
    billable := rfl
    planExact := by
      right
      have hid := h.quoteId
      have hplan : (optionalOperation (some "plan")).isSome = true := by decide
      have hsnapshot : (optionalOperation (some "snapshot")).isSome = true := by decide
      simp only [planIsExact, plan, carrierAsContract, hplan, hsnapshot, hid, hrevision,
        Option.any_some]
      rfl
    package := by
      rintro packageBilling hpackage
      obtain rfl := Option.some.inj hpackage
      exact ⟨_, assertPackageBilling_copy
        (htrimmed contractHash (List.mem_append_right _ List.mem_cons_self)) hhash
        (fun unit hunit => ⟨htrimmed' unit hunit, hunits unit hunit⟩) hnodup' hfifty hmem⟩ }

/-- The carriers, and the contract behind them. -/
def tail (identity : BillingIdentity) : List String :=
  identity.carriers ++ (identity.packageBilling.map (·.contractHash)).toList

/-- A carrier that stands last is later than the others. -/
theorem lt_of_sorted {last : String} (hsorted : (units ++ [last]).Pairwise TextLe)
    (hnodup : (units ++ [last]).Nodup) : ∀ unit ∈ units, codeUnits unit < codeUnits last := by
  intro unit hunit
  have hle := (List.pairwise_append.mp hsorted).2.2 unit hunit last List.mem_cons_self
  refine lt_of_le_of_ne hle fun heq => ?_
  exact (List.nodup_append.mp hnodup).2.2 unit hunit last List.mem_cons_self (codeUnits_inj.mp heq)

/-- **Read one way, the tail gives the carriers and the contract.** -/
theorem tail_identifies (h : identity.Exact) (h' : other.Exact) (hreads : identity.TailReadsOneWay)
    (hquote : identity.quoteRef = other.quoteRef) (htail : identity.tail = other.tail) :
    identity.carriers = other.carriers ∧ identity.packageBilling.map (·.contractHash) =
      other.packageBilling.map (·.contractHash) := by
  rw [TailReadsOneWay] at hreads
  rw [tail, tail] at htail
  rcases hpackage : identity.packageBilling with _ | package <;>
    rcases hpackage' : other.packageBilling with _ | package' <;>
    rw [hpackage] at hreads htail <;> rw [hpackage'] at htail <;>
    simp only [Option.map_none, Option.map_some, Option.toList_none, Option.toList_some,
      List.append_nil] at htail
  · exact ⟨htail, rfl⟩
  · -- the other's contract is the last carrier here
    refine absurd ?_ hreads
    obtain ⟨allocation, hallocation⟩ := h'.package package' hpackage'
    obtain ⟨hhash, hfifty, hunits⟩ := package_bounds (map_trim_carriers h') hallocation
    have htrim : Text.trim package'.contractHash = package'.contractHash :=
      (h.carriersTrimmed _ (htail ▸ List.mem_append_right _ List.mem_cons_self)).1
    have hpos : 0 < other.carriers.length := List.length_pos_of_mem h'.carrierMem
    rw [htail, List.length_append, List.length_singleton, List.dropLast_concat,
      List.getLast?_concat, hquote]
    refine ⟨by omega, by omega, hunits, fun unit hunit => ?_, ?_⟩
    · exact Option.some.inj hunit ▸ htrim ▸ hhash
    · rcases h'.plan_cases with ⟨-, hplan⟩ | ⟨-, -, -, hnone⟩
      · obtain ⟨-, -, -, hrevision⟩ := of_decide_eq_true hplan
        simpa [plan, h'.quoteId] using hrevision
      · cases hnone.symm.trans hpackage'
  · -- the contract here is the other's last carrier
    refine absurd ?_ hreads
    have hsorted := htail ▸ h'.carriersSorted
    have hnodup := htail ▸ h'.carriersNodup
    refine ⟨?_, lt_of_sorted hsorted hnodup⟩
    exact (h'.carriersTrimmed _ (htail ▸ List.mem_append_right _ List.mem_cons_self)).1
  · obtain ⟨hcarriers, hlast⟩ := List.append_inj' htail rfl
    exact ⟨hcarriers, congrArg some (List.singleton_inj.mp hlast)⟩

/-- **Read two ways, another identity has the tail.** -/
theorem exists_tail_of_not_reads (h : identity.Exact) (hreads : ¬ identity.TailReadsOneWay) :
    ∃ other : BillingIdentity, other.Exact ∧ identity.workFacts = other.workFacts ∧
      identity.carrierUnitIds ≠ other.carrierUnitIds := by
  have hne : ∀ {carriers : List String} {unit : String}, carriers ≠ carriers ++ [unit] :=
    fun heq => by simpa using congrArg List.length heq
  rw [TailReadsOneWay] at hreads
  rcases hpackage : identity.packageBilling with _ | package <;> rw [hpackage] at hreads <;>
    obtain hreads := not_not.mp hreads
  · obtain ⟨htwo, hmany, hunits, hlast, hrevision⟩ := hreads
    obtain hnil | ⟨carriers, contractHash, hcarriers⟩ := identity.carriers.eq_nil_or_concat
    · rw [hnil] at htwo
      exact absurd htwo (by decide)
    · rw [List.concat_eq_append] at hcarriers
      rw [hcarriers] at htwo hmany hunits hlast
      rw [List.length_append, List.length_singleton] at htwo hmany
      rw [List.dropLast_concat] at hunits
      obtain ⟨carrier, hmem⟩ := List.exists_mem_of_length_pos (l := carriers) (by omega)
      refine ⟨identity.carrierAsContract carriers carrier contractHash,
        exact_carrierAsContract h hcarriers hmem (by omega) hunits
          (hlast contractHash List.getLast?_concat) hrevision, ?_, ?_⟩
      · rw [workFacts, hpackage, hcarriers, workFacts]
        simp [carrierAsContract, BillingIdentity.carriers, operations]
      · rw [h.carrierUnitIds, hcarriers]
        exact fun heq => hne (Option.some.inj heq).symm
  · obtain ⟨htrim, hlast⟩ := hreads
    obtain ⟨allocation, hallocation⟩ := h.package package hpackage
    refine ⟨identity.contractAsCarrier package.contractHash, exact_contractAsCarrier h
      ⟨htrim, contractHash_ne_empty hallocation⟩ hlast, ?_, ?_⟩
    · rw [workFacts, hpackage, workFacts]
      simp [contractAsCarrier, BillingIdentity.carriers, operations]
    · rw [h.carrierUnitIds]
      exact fun heq => hne (Option.some.inj heq)

theorem workKey_identifies (h : identity.Exact) :
    (∀ other : BillingIdentity, Built other → identity.workSettlementKey =
      other.workSettlementKey → SameWorkFacts identity other) ↔
      identity.operations.ReadsOneWay ∧ identity.TailReadsOneWay := by
  constructor
  · intro hunique
    refine ⟨readsOneWay_of_identifies h fun operations hexact heq => ?_, ?_⟩
    · have hother := exact_withOperations h hexact heq
      refine (hunique _ (built_of_exact hother) ?_).operations
      rw [workSettlementKey_eq_iff h hother, workFacts, heq]
      rfl
    · by_contra hreads
      obtain ⟨other, hother, hfacts, hne⟩ := exists_tail_of_not_reads h hreads
      exact hne (hunique other (built_of_exact hother)
        ((workSettlementKey_eq_iff h hother).mpr hfacts)).carrierUnitIds
  · rintro ⟨hreads, htailReads⟩ other hother heq
    have hexact := exact_of_built hother
    rw [workSettlementKey_eq_iff h hexact, workFacts, workFacts, List.append_assoc,
      List.append_assoc] at heq
    simp only [List.cons_append, List.nil_append, List.cons.injEq] at heq
    obtain ⟨hworkspace, htask, hwork, hid, hrevision, hfingerprint, htail⟩ := heq
    have hquote : identity.quoteRef = other.quoteRef := by
      rw [← show (⟨identity.quoteRef.id, identity.quoteRef.revision⟩ : BillingQuoteRef) =
        identity.quoteRef from rfl, hid, hrevision]
    obtain ⟨hcarriers, hcontract⟩ := tail_identifies h hexact htailReads hquote htail
    exact {
      workspaceId := hworkspace
      taskId := htask
      workId := hwork
      quoteRef := hquote
      operations := (Operations.fingerprint_identifies_iff h.operations).mpr hreads _
        hexact.operations hfingerprint
      carrierUnitIds := by rw [h.carrierUnitIds, hexact.carrierUnitIds, hcarriers]
      contractHash := hcontract }

/-- The workspace is read back from the key of a work. -/
theorem workspaceId_of_workKey (h : identity.Exact) :
    ∃ key, identity.workSettlementKey = .ok key ∧
      workspaceIdFromWorkSettlementKey key = .ok identity.workspaceId := by
  refine ⟨_, workSettlementKey_eq h, ?_⟩
  have hmark : ∀ text ∈ "billing-work" :: identity.workFacts.map Base64.base64,
      ':' ∉ text.toList := by
    intro text htext
    obtain rfl | hmem := List.mem_cons.mp htext
    · decide
    · obtain ⟨fact, -, rfl⟩ := List.mem_map.mp hmem
      exact Base64.colon_notMem_base64 fact
  have hfactsNe : identity.workFacts.map Base64.base64 ≠ [] := List.cons_ne_nil _ _
  have hkey : "billing-work:" ++ Text.join ':' (identity.workFacts.map Base64.base64) =
      Text.join ':' ("billing-work" :: identity.workFacts.map Base64.base64) := by
    rw [Text.join_cons hfactsNe]
    rfl
  have hne : Base64.base64 identity.workspaceId ≠ "" := by
    intro hempty
    exact h.workspaceId.2 (Base64.base64_inj.mp (hempty.trans rfl))
  have hpos : 0 < identity.carriers.length := List.length_pos_of_mem h.carrierMem
  have hlength : ¬ ((identity.workFacts.tail.map Base64.base64).length < 6) := by
    rw [List.length_map, workFacts]
    simp only [List.cons_append, List.nil_append, List.tail_cons, List.length_cons,
      List.length_append]
    omega
  have hfacts : identity.workFacts = identity.workspaceId :: identity.workFacts.tail := rfl
  rw [hkey, workspaceIdFromWorkSettlementKey, Text.split_join (List.cons_ne_nil _ _) hmark, hfacts,
    List.map_cons]
  simp only [ne_eq, not_true_eq_false, hne, hlength, or_self, if_false, Base64.fromBase64_base64,
    h.workspaceId.isBlank, Bool.false_eq_true]
  rfl

/-- **The keys that identify.**  Nobody else has the fingerprint of an identity, or the key of its
carrier unit, exactly when its operations are read one way; nobody else has the key of its work
exactly when its carriers and contract are, too.  The workspace is always read back. -/
theorem keys_identify {identity : BillingIdentity} (h : Built identity) :
    ((∀ other : BillingIdentity, Built other → identity.billingIdentityReservationFingerprint =
      other.billingIdentityReservationFingerprint → identity.operations = other.operations) ↔
      identity.operations.ReadsOneWay) ∧
    ((∀ other : BillingIdentity, Built other → identity.settlementIdempotencyKey =
      other.settlementIdempotencyKey → SameUnitFacts identity other) ↔
      identity.operations.ReadsOneWay) ∧
    ((∀ other : BillingIdentity, Built other → identity.workSettlementKey =
      other.workSettlementKey → SameWorkFacts identity other) ↔
      identity.operations.ReadsOneWay ∧ identity.TailReadsOneWay) ∧
    ∃ key, identity.workSettlementKey = .ok key ∧
      workspaceIdFromWorkSettlementKey key = .ok identity.workspaceId := by
  have hexact := exact_of_built h
  exact ⟨fingerprint_identifies hexact, unitKey_identifies hexact, workKey_identifies hexact,
    workspaceId_of_workKey hexact⟩

/-- A request under two operations. -/
def plainRequest (creditHold creditUsage : Option String) : BillingIdentitySource where
  workspaceId := some "workspace"
  creditHoldOperationId := creditHold
  creditUsageOperationId := creditUsage
  productUsageReservationId := some "reservation"
  billingTaskId := some "task"
  carrierUnitId := some "single"
  carrierUnitIds := some ["single"]
  carrierBillableUnits := some 1
  executionSnapshot := some ⟨some "work", some ⟨"quote", "1"⟩⟩

/-- The identity of the plain request. -/
def plainIdentity (creditHold creditUsage : Option String) : BillingIdentity where
  workspaceId := "workspace"
  taskId := "task"
  workId := "work"
  workflowId := "workflow"
  quoteRef := ⟨"quote", "1"⟩
  creditHoldOperationId := creditHold
  creditUsageOperationId := creditUsage
  productUsageReservationId := some "reservation"
  reservationId := typedFingerprint creditHold creditUsage (some "reservation")
  carrierUnitId := some "single"
  carrierUnitIds := some ["single"]
  carrierBillableUnits := some 1
  packageBilling := none
  planId := none
  planRevision := none
  snapshotHash := none

/-- The workspace of a plain identity is read back from the key of its work. -/
theorem keys_identify_plain : ∃ key,
    (plainIdentity (some "hold") (some "consume")).workSettlementKey = .ok key ∧
      workspaceIdFromWorkSettlementKey key = .ok "workspace" :=
  (keys_identify ⟨plainRequest (some "hold") (some "consume"), "workflow",
    by decide +kernel⟩).2.2.2

/-- **Two requests, one key**: without a hold, and with a hold that is a dash. -/
theorem not_keys_identify : ¬ ∀ identity other : BillingIdentity, Built identity → Built other →
    identity.settlementIdempotencyKey = other.settlementIdempotencyKey →
      identity.operations = other.operations := by
  intro h
  have hnone : Built (plainIdentity none (some "consume")) :=
    ⟨plainRequest none (some "consume"), "workflow", by decide +kernel⟩
  have hdash : Built (plainIdentity (some "-") (some "consume")) :=
    ⟨plainRequest (some "-") (some "consume"), "workflow", by decide +kernel⟩
  have hkeys := (settlementIdempotencyKey_eq_iff (exact_of_built hnone) (exact_of_built hdash)).mpr
    rfl
  exact nomatch h _ _ hnone hdash hkeys

end BillingIdentity

end MeiyeAgent
