import MeiyeAgent.Foundation.Json
import MeiyeAgent.Harness.BillingIdentity

/-!
# Harness/ExecutionPlans — compiled plans, and the carriers that run them

A compiled plan is data: typed units, and groups that schedule them.  A unit names a step, and a
carrier declares the steps it implements, in order.

* `CompiledExecutionPlan` — a plan, with its JSON.
* `currentExecutionPlanCapabilityViolation` — why a plan contradicts what it declares.
* `CarrierUnitRecipe` — a carrier: its own plan, and its step catalogue.
-/

namespace MeiyeAgent

/-! ## Plans -/

inductive CompiledPrimitiveId
  | read_context
  | generate
  | revise
  | record
  | check
  | ask_merchant
  deriving DecidableEq, Repr

def CompiledPrimitiveId.text : CompiledPrimitiveId → String
  | .read_context => "read_context"
  | .generate => "generate"
  | .revise => "revise"
  | .record => "record"
  | .check => "check"
  | .ask_merchant => "ask_merchant"

structure ExecutionUnit where
  unitId : String
  unitType : String
  primitive : Option CompiledPrimitiveId := none
  input : Option Json := none

structure DependencyGroup where
  groupId : String
  unitIds : List String
  deriving DecidableEq

structure CompiledExecutionCapabilities where
  scheduling : String
  retry : String
  cache : String
  deriving DecidableEq

def CURRENT_COMPILED_EXECUTION_CAPABILITIES : CompiledExecutionCapabilities :=
  ⟨"serial", "none", "none"⟩

/-- A retry, with the predicate it is enabled by. -/
structure BoundedRetry where
  maxAttempts : Nat
  maxCostCents : Nat
  predicateRef : Option String := none
  deriving DecidableEq

structure CachePolicy where
  ttlSeconds : Nat
  dependsOn : List String
  deriving DecidableEq

def COMPILED_EXECUTION_PLAN_SCHEMA_VERSION : String := "compiled-execution-plan/v1"

structure CompiledExecutionPlan where
  schemaVersion : String := COMPILED_EXECUTION_PLAN_SCHEMA_VERSION
  executionCapabilities : Option CompiledExecutionCapabilities := none
  units : List ExecutionUnit
  dependencyGroups : List DependencyGroup
  boundedRetry : List (String × BoundedRetry) := []
  cachePolicies : Option (List (String × CachePolicy)) := none

/-! ### As JSON -/

/-- A number as JSON. -/
def Json.ofNat (n : Nat) : Json := .number (toString n)

/-- A field that is written when it has a value. -/
def Json.given (name : String) (value : Option Json) : List (String × Json) :=
  value.toList.map (name, ·)

def ExecutionUnit.toJson (unit : ExecutionUnit) : Json :=
  .object ([("unitId", .text unit.unitId), ("unitType", .text unit.unitType)] ++
    Json.given "primitive" (unit.primitive.map (.text ·.text)) ++ Json.given "input" unit.input)

def DependencyGroup.toJson (group : DependencyGroup) : Json :=
  .object [("groupId", .text group.groupId), ("unitIds", .array (group.unitIds.map .text))]

def CompiledExecutionCapabilities.toJson (capabilities : CompiledExecutionCapabilities) : Json :=
  .object [("scheduling", .text capabilities.scheduling), ("retry", .text capabilities.retry),
    ("cache", .text capabilities.cache)]

def BoundedRetry.toJson (retry : BoundedRetry) : Json :=
  .object [("maxAttempts", .ofNat retry.maxAttempts), ("maxCostCents", .ofNat retry.maxCostCents),
    ("retry", .object (("enabled", .bool retry.predicateRef.isSome) ::
      Json.given "predicateRef" (retry.predicateRef.map .text)))]

def CachePolicy.toJson (policy : CachePolicy) : Json :=
  .object [("ttlSeconds", .ofNat policy.ttlSeconds), ("scope", .text "workspace"),
    ("dependsOn", .array (policy.dependsOn.map .text))]

def CompiledExecutionPlan.toJson (plan : CompiledExecutionPlan) : Json :=
  .object ([("schemaVersion", .text plan.schemaVersion)] ++
    Json.given "executionCapabilities" (plan.executionCapabilities.map (·.toJson)) ++
    [("units", .array (plan.units.map (·.toJson))),
      ("dependencyGroups", .array (plan.dependencyGroups.map (·.toJson))),
      ("boundedRetry", .object (plan.boundedRetry.map fun e => (e.1, e.2.toJson)))] ++
    Json.given "cachePolicies"
      (plan.cachePolicies.map fun policies => .object (policies.map fun e => (e.1, e.2.toJson))))

/-! ### What a plan declares -/

/-- The units in the order of the groups. -/
def CompiledExecutionPlan.scheduled (plan : CompiledExecutionPlan) : List String :=
  plan.dependencyGroups.flatMap (·.unitIds)

/-- `currentExecutionPlanCapabilityViolation`. -/
def currentExecutionPlanCapabilityViolation (plan : CompiledExecutionPlan) : Option String :=
  match plan.executionCapabilities with
  | none => some "missing current execution capability declaration"
  | some capabilities =>
    if capabilities ≠ CURRENT_COMPILED_EXECUTION_CAPABILITIES then
      some "unsupported execution capability declaration"
    else if plan.dependencyGroups.any (·.unitIds.length ≠ 1) then
      some "serial scheduling requires singleton dependency groups"
    else if plan.scheduled ≠ plan.units.map (·.unitId) then
      some "serial schedule must list every unit once in execution order"
    else if plan.boundedRetry ≠ [] then some "retry is disabled but boundedRetry is not empty"
    else if plan.cachePolicies.any (· ≠ []) then
      some "cache is disabled but cachePolicies is not empty"
    else none

/-! ## Carriers -/

/-- `lens` of an execution snapshot. -/
inductive ExecutionLens
  | copy
  | image
  | video
  | image_text_note
  deriving DecidableEq, Repr

/-- `lensToContentCarrier`. -/
def lensToContentCarrier : Option ExecutionLens → PlanDeliverableCarrier
  | some .image_text_note => .note
  | some .image | some .video => .media
  | _ => .copy

def PlanDeliverableCarrier.text : PlanDeliverableCarrier → String
  | .copy => "copy"
  | .note => "note"
  | .media => "media"

structure CarrierStepDeclaration where
  primitive : CompiledPrimitiveId
  role : String
  required : Bool
  repeatable : Bool
  deriving DecidableEq

/-- A step as it is named, by its primitive and its role. -/
def CarrierStepDeclaration.key (step : CarrierStepDeclaration) : String :=
  step.primitive.text ++ ":" ++ step.role

/-- A carrier's own plan and its steps, without the words about it. -/
structure CarrierUnitRecipe where
  carrier : PlanDeliverableCarrier
  plan : CompiledExecutionPlan
  stepCatalog : List CarrierStepDeclaration

/-- The groups with one unit each. -/
def serialGroups (groups : List DependencyGroup) : List DependencyGroup :=
  groups.flatMap fun group => group.unitIds.mapIdx fun index unitId =>
    ⟨if index = 0 then group.groupId else group.groupId ++ "-" ++ toString (index + 1), [unitId]⟩

/-- `buildPlan`. -/
def buildPlan (units : List ExecutionUnit) (groups : List DependencyGroup) :
    CompiledExecutionPlan where
  executionCapabilities := some CURRENT_COMPILED_EXECUTION_CAPABILITIES
  units := units
  dependencyGroups := serialGroups groups

/-- The input a recipe declares for a unit. -/
def declaredUnit (unitId unitType : String) (primitive : CompiledPrimitiveId)
    (stage role : String) (rubric : Option String := none) : ExecutionUnit where
  unitId := unitId
  unitType := unitType
  primitive := some primitive
  input := some (.object ([("stage", .text stage), ("role", .text role)] ++
    Json.given "rubric" (rubric.map .text)))

/-- The steps of the copy carrier and of the media carrier. -/
def SELECTION_STEP_CATALOG : List CarrierStepDeclaration :=
  [⟨.read_context, "context", true, false⟩, ⟨.generate, "brief", true, false⟩,
    ⟨.generate, "selection", true, true⟩, ⟨.check, "gate", true, false⟩,
    ⟨.record, "assemble", true, false⟩]

def COPY_STEP_CATALOG : List CarrierStepDeclaration := SELECTION_STEP_CATALOG

def NOTE_STEP_CATALOG : List CarrierStepDeclaration :=
  [⟨.read_context, "context", true, false⟩, ⟨.generate, "brief", true, false⟩,
    ⟨.ask_merchant, "style_choice", true, false⟩, ⟨.generate, "pages", true, true⟩,
    ⟨.check, "consistency", true, false⟩, ⟨.revise, "page_regenerate", false, false⟩,
    ⟨.record, "assemble", true, false⟩]

def MEDIA_STEP_CATALOG : List CarrierStepDeclaration := SELECTION_STEP_CATALOG

def buildCopyCarrierRecipe : CarrierUnitRecipe where
  carrier := .copy
  plan := buildPlan
    [declaredUnit "unit-copy-context" "context.read" .read_context "context_injection" "context",
      declaredUnit "unit-copy-brief" "copy.generate" .generate "brief_compilation" "brief",
      declaredUnit "unit-copy-select" "copy.generate" .generate "execution_selection" "selection",
      declaredUnit "unit-copy-check" "compliance.check" .check "execution_selection" "gate"
        (some "copy_delivery_readiness"),
      declaredUnit "unit-copy-assemble" "delivery.record" .record "assembly_delivery" "assemble"]
    [⟨"g-context", ["unit-copy-context"]⟩, ⟨"g-brief", ["unit-copy-brief"]⟩,
      ⟨"g-execute", ["unit-copy-select", "unit-copy-check"]⟩,
      ⟨"g-assemble", ["unit-copy-assemble"]⟩]
  stepCatalog := COPY_STEP_CATALOG

def buildNoteCarrierRecipe : CarrierUnitRecipe where
  carrier := .note
  plan := buildPlan
    [declaredUnit "unit-note-context" "context.read" .read_context "context_injection" "context",
      declaredUnit "unit-note-brief" "note.generate" .generate "brief_compilation" "brief",
      declaredUnit "unit-note-style-ask" "merchant.ask" .ask_merchant "brief_compilation"
        "style_choice",
      declaredUnit "unit-note-pages" "note.generate" .generate "execution_selection" "pages",
      declaredUnit "unit-note-check" "compliance.check" .check "execution_selection" "consistency"
        (some "note_page_consistency"),
      declaredUnit "unit-note-revise" "note.revise" .revise "execution_selection"
        "page_regenerate",
      declaredUnit "unit-note-assemble" "delivery.record" .record "assembly_delivery" "assemble"]
    [⟨"g-context", ["unit-note-context"]⟩, ⟨"g-brief", ["unit-note-brief", "unit-note-style-ask"]⟩,
      ⟨"g-execute", ["unit-note-pages", "unit-note-check", "unit-note-revise"]⟩,
      ⟨"g-assemble", ["unit-note-assemble"]⟩]
  stepCatalog := NOTE_STEP_CATALOG

def buildMediaCarrierRecipe : CarrierUnitRecipe where
  carrier := .media
  plan := buildPlan
    [declaredUnit "unit-media-context" "context.read" .read_context "context_injection" "context",
      declaredUnit "unit-media-brief" "media.generate" .generate "brief_compilation" "brief",
      declaredUnit "unit-media-select" "media.generate" .generate "execution_selection"
        "selection",
      declaredUnit "unit-media-check" "compliance.check" .check "execution_selection" "gate"
        (some "media_delivery_readiness"),
      declaredUnit "unit-media-assemble" "delivery.record" .record "assembly_delivery" "assemble"]
    [⟨"g-context", ["unit-media-context"]⟩, ⟨"g-brief", ["unit-media-brief"]⟩,
      ⟨"g-execute", ["unit-media-select", "unit-media-check"]⟩,
      ⟨"g-assemble", ["unit-media-assemble"]⟩]
  stepCatalog := MEDIA_STEP_CATALOG

/-- The canonical registry: one recipe for each carrier. -/
def resolveRecipe : PlanDeliverableCarrier → CarrierUnitRecipe
  | .copy => buildCopyCarrierRecipe
  | .note => buildNoteCarrierRecipe
  | .media => buildMediaCarrierRecipe

end MeiyeAgent
