import MeiyeAgent.Foundation.JsonForms
import MeiyeAgent.Harness.BillingIdentity
import MeiyeAgent.ProductBilling.QuoteModel

/-!
# Harness/SettlementObjects — what a settlement is asked with, and the object that says it

A settlement is handed from the workflow to the executor, to the queue and back.  Its facts are one
value; the object that carries them has its fields in the order it was built in, and whoever passes
it on may have added fields of its own.

* `HarnessBillingSettlementInput` — the facts.
* `SettlementHost` — the texts of numbers, the digest, and what `jsonb` does to the order of fields.
* `SettlementObject` — **an object and the facts it writes**.
-/

namespace MeiyeAgent

inductive CarrierTerminalAction
  | commit
  | refund
  deriving DecidableEq, Repr

/-- Trusted usage, with the reference to its evidence. -/
structure TrustedSettlementUsage where
  evidence : TrustedUsageEvidence
  evidenceRef : Option String := none
  deriving DecidableEq

structure HarnessBillingSettlementInput where
  workspaceId : String
  taskId : String
  billingTaskId : String
  billingIdentity : BillingIdentity
  settlementIdempotencyKey : Option String := none
  quoteId : String
  quoteRevision : String
  creditUsageOperationId : Option String := none
  trustedUsage : Option TrustedSettlementUsage := none
  partialDelivery : Option PartialDeliveryBasis := none
  packagePartialDelivery : Option PackagePartialDeliveryBasis := none
  forceCreditRefund : Option Bool := none
  deriving DecidableEq

structure HarnessBillingCompensationTask extends HarnessBillingSettlementInput where
  action : CarrierTerminalAction
  attempts : Nat
  deriving DecidableEq

/-! ## How the facts are written -/

namespace CarrierTerminalAction

def name : CarrierTerminalAction → String
  | commit => "commit"
  | refund => "refund"

end CarrierTerminalAction

namespace TrustedSettlementUsage

def kindName : UsageEvidenceKind → String
  | .provider_usage => "provider_usage"
  | .provider_bill => "provider_bill"
  | .media_duration => "media_duration"
  | .estimated => "estimated"
  | .unknown => "unknown"

theorem kindName_injective : Function.Injective kindName := by
  intro a b h
  cases a <;> cases b <;> first | rfl | exact absurd h (by decide)

def kind (usage : TrustedSettlementUsage) : String :=
  match usage.evidence with
  | .seconds kind _ => kindName kind
  | .product_units _ => "product_units"

def actualSeconds (usage : TrustedSettlementUsage) : Option ℚ :=
  match usage.evidence with
  | .seconds _ actualSeconds => some actualSeconds
  | .product_units _ => none

def units (usage : TrustedSettlementUsage) : Option (List ProductUsageUnit) :=
  match usage.evidence with
  | .seconds _ _ => none
  | .product_units units => some units

/-- Usage is known by its fields. -/
theorem ext_fields {usage other : TrustedSettlementUsage} (hkind : usage.kind = other.kind)
    (hseconds : usage.actualSeconds = other.actualSeconds) (hunits : usage.units = other.units)
    (href : usage.evidenceRef = other.evidenceRef) : usage = other := by
  obtain ⟨evidence, ref⟩ := usage
  obtain ⟨evidence', ref'⟩ := other
  obtain rfl : ref = ref' := href
  cases evidence with
  | seconds kind seconds =>
    cases evidence' with
    | seconds kind' seconds' =>
      obtain rfl := Option.some.inj hseconds
      rw [kindName_injective hkind]
    | product_units units => exact nomatch hunits
  | product_units units =>
    cases evidence' with
    | seconds kind seconds => exact nomatch hunits
    | product_units units' => rw [Option.some.inj hunits]

end TrustedSettlementUsage

namespace Form

def stringList : Form (List String) := text.list

def carrier : Form PlanDeliverableCarrier :=
  enum fun | .copy => "copy" | .note => "note" | .media => "media"

def quoteRef : Form BillingQuoteRef :=
  object [.required "id" text (·.id), .required "revision" text (·.revision)]

def catalogModel : Form PackageCatalogModel :=
  object [.required "id" text (·.id), .required "revision" text (·.revision)]

def allocation : Form ExecutionPlanPackageBillingAllocation :=
  object [.required "carrierUnitId" text (·.carrierUnitId),
    .required "allocationId" text (·.allocationId),
    .required "carrier" carrier (·.carrier),
    .required "deliveryUnits" int (·.deliveryUnits),
    .required "creditCost" int (·.creditCost),
    .required "failureRefundsCredits" bool (·.failureRefundsCredits),
    .required "operation" text (·.operation),
    .required "catalogModel" catalogModel (·.catalogModel),
    .required "routeSnapshotRef" text (·.routeSnapshotRef),
    .required "rightsRevisionRefs" stringList (·.rightsRevisionRefs)]

def packageBilling : Form ExecutionPlanPackageBilling :=
  object [.required "contractHash" text (·.contractHash),
    .required "allocations" allocation.list (·.allocations)]

def billingIdentity : Form BillingIdentity :=
  object [.required "workspaceId" text (·.workspaceId),
    .required "taskId" text (·.taskId),
    .required "workId" text (·.workId),
    .required "workflowId" text (·.workflowId),
    .required "quoteRef" quoteRef (·.quoteRef),
    .optional "creditHoldOperationId" text (·.creditHoldOperationId),
    .optional "creditUsageOperationId" text (·.creditUsageOperationId),
    .optional "productUsageReservationId" text (·.productUsageReservationId),
    .required "reservationId" text (·.reservationId),
    .optional "carrierUnitId" text (·.carrierUnitId),
    .optional "carrierUnitIds" stringList (·.carrierUnitIds),
    .optional "carrierBillableUnits" int (·.carrierBillableUnits),
    .optional "packageBilling" packageBilling (·.packageBilling),
    .optional "planId" text (·.planId),
    .optional "planRevision" int (·.planRevision),
    .optional "snapshotHash" text (·.snapshotHash)]

def partialDelivery : Form PartialDeliveryBasis :=
  object [.required "totalUnits" int (·.totalUnits),
    .required "deliveredUnits" int (·.deliveredUnits)]

def deliveredAllocation : Form DeliveredAllocation :=
  object [.required "allocationId" text (·.allocationId),
    .required "deliveredUnits" int (·.deliveredUnits)]

def packagePartialDelivery : Form PackagePartialDeliveryBasis :=
  object [.required "allocations" deliveredAllocation.list (·.allocations)]

def usageUnit : Form ProductUsageUnit :=
  object [.required "resource" (enum ProductUsageResource.name) (·.resource),
    .required "quantity" int (·.quantity)]

variable (numberText : ℚ → String) (hnumber : Function.Injective numberText)

def trustedUsage : Form TrustedSettlementUsage :=
  object [.required "kind" text (·.kind),
    .optional "actualSeconds" (number numberText hnumber) (·.actualSeconds),
    .optional "units" usageUnit.list (·.units),
    .optional "evidenceRef" text (·.evidenceRef)]
    (by
      simp only [List.map_cons, List.map_nil, FormField.name_required, FormField.name_optional]
      decide)
    fun usage other h => by
      simp only [List.forall_mem_cons, FormField.required, FormField.optional] at h
      exact TrustedSettlementUsage.ext_fields h.1 h.2.1 h.2.2.1 h.2.2.2.1

def settlementFields : List (FormField HarnessBillingSettlementInput) :=
  [.required "workspaceId" text (·.workspaceId),
    .required "taskId" text (·.taskId),
    .required "billingTaskId" text (·.billingTaskId),
    .required "billingIdentity" billingIdentity (·.billingIdentity),
    .optional "settlementIdempotencyKey" text (·.settlementIdempotencyKey),
    .required "quoteId" text (·.quoteId),
    .required "quoteRevision" text (·.quoteRevision),
    .optional "creditUsageOperationId" text (·.creditUsageOperationId),
    .optional "trustedUsage" (trustedUsage numberText hnumber) (·.trustedUsage),
    .optional "partialDelivery" partialDelivery (·.partialDelivery),
    .optional "packagePartialDelivery" packagePartialDelivery (·.packagePartialDelivery),
    .optional "forceCreditRefund" bool (·.forceCreditRefund)]

theorem settlementFields_names : (settlementFields numberText hnumber).map (·.name) =
    ["workspaceId", "taskId", "billingTaskId", "billingIdentity", "settlementIdempotencyKey",
      "quoteId", "quoteRevision", "creditUsageOperationId", "trustedUsage", "partialDelivery",
      "packagePartialDelivery", "forceCreditRefund"] := rfl

def settlement : Form HarnessBillingSettlementInput :=
  object (settlementFields numberText hnumber)
    (by
      rw [settlementFields_names]
      decide)
    fun a b h => by
      simp only [settlementFields, List.forall_mem_cons, FormField.required,
        FormField.optional] at h
      cases a; cases b; simp_all

end Form

/-! ## Objects -/

/-- **The host of the settlements**: the text of a number, the hex SHA-256 of an object's JSON
text, and the object a `jsonb` column gives back for a settlement, which writes the same settlement
in an order of its own. -/
structure SettlementHost where
  numberText : ℚ → String
  numberText_injective : Function.Injective numberText
  digest : Json → String
  jsonb : HarnessBillingSettlementInput → List (String × Json)
  jsonb_writes : ∀ input,
    (Form.settlement numberText numberText_injective).Writes input (.object (jsonb input))

namespace SettlementHost

variable (host : SettlementHost)

/-- How this host writes a settlement. -/
def form : Form HarnessBillingSettlementInput :=
  Form.settlement host.numberText host.numberText_injective

end SettlementHost

/-- **An object and the settlement it writes**; it may have further fields. -/
structure SettlementObject (host : SettlementHost) where
  settlement : HarnessBillingSettlementInput
  fields : List (String × Json)
  writes : host.form.Writes settlement (.object fields)

namespace SettlementObject

variable {host : SettlementHost}

/-- The settlement written field after field, in the order of its type. -/
def ofInput (host : SettlementHost) (settlement : HarnessBillingSettlementInput) :
    SettlementObject host where
  settlement := settlement
  fields := writeFields (Form.settlementFields host.numberText host.numberText_injective) settlement
  writes := host.form.writes_write settlement

/-- **The object of a task the queue hands out**: the claim's fields, then the row's payload. -/
def ofTask (host : SettlementHost) (task : HarnessBillingCompensationTask) :
    SettlementObject host where
  settlement := task.toHarnessBillingSettlementInput
  fields := ("action", .text task.action.name) :: ("attempts", .number (intText task.attempts)) ::
    host.jsonb task.toHarnessBillingSettlementInput
  writes := by
    refine Form.object_writes_cons ?_ (Form.object_writes_cons ?_ (host.jsonb_writes _))
    · rw [Form.settlementFields_names]
      decide
    · rw [Form.settlementFields_names]
      decide

/-- The fields without the key the store adds. -/
def body (object : SettlementObject host) : List (String × Json) :=
  object.fields.filter (·.1 ≠ "settlementIdempotencyKey")

/-- The facts of the settlement: its key is not one. -/
def facts (object : SettlementObject host) : HarnessBillingSettlementInput :=
  { object.settlement with settlementIdempotencyKey := none }

/-- **The body writes the facts.** -/
theorem body_writes (object : SettlementObject host) :
    host.form.Writes object.facts (.object object.body) := by
  have h := object.writes
  simp only [SettlementHost.form, Form.settlement, Form.object, Form.settlementFields,
    List.forall_mem_cons, FormField.name_required, FormField.name_optional] at h ⊢
  obtain ⟨h1, h2, h3, h4, -, h6, h7, h8, h9, h10, h11, h12, -⟩ := h
  refine ⟨?_, ?_, ?_, ?_, ?_, ?_, ?_, ?_, ?_, ?_, ?_, ?_, nofun⟩
  case refine_5 =>
    rw [body, Json.field?_filter_self]
    exact .none
  all_goals rw [body, Json.field?_filter (by decide)]; assumption

/-- One body writes one settlement's facts. -/
theorem facts_of_body {object other : SettlementObject host} (h : object.body = other.body) :
    object.facts = other.facts :=
  host.form.unique object.body_writes (h ▸ other.body_writes)

end SettlementObject

end MeiyeAgent
