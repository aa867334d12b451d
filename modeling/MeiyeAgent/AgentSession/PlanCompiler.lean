import MeiyeAgent.AgentSession.Confirmations
import MeiyeAgent.Foundation.JsonForms
import MeiyeAgent.Harness.ExecutionPlans

/-!
# AgentSession/PlanCompiler — execution plans compiled from a revision

A marketing plan lists deliverables; each carrier among them is executed by a plan of its own.  The
canonical recipe of the carrier is expanded: a repeatable step runs once for each unit of a
deliverable, and every unit carries what was asked for.

* `buildCompiledCarrierExecutionPlans` — one plan a carrier.
* `expandUnit` — what becomes of one unit of a recipe.
-/

namespace MeiyeAgent

/-! ## Revisions -/

structure PlanDeliverable where
  deliverableId : String
  kind : PlanDeliverableCarrier
  platform : Option String := none
  quantity : Nat
  purpose : Option String := none
  quantity_pos : 0 < quantity

/-- What the compiler reads of a revision; a memory context is passed on as it is. -/
structure MarketingPlanRevision where
  planId : String
  revision : Nat
  deliverables : List PlanDeliverable
  quoteRef : AgentRevisionRef
  memoryContext : Option Json := none

def PlanDeliverable.toJson (deliverable : PlanDeliverable) : Json :=
  .object ([("deliverableId", .text deliverable.deliverableId),
      ("kind", .text deliverable.kind.text)] ++
    Json.given "platform" (deliverable.platform.map .text) ++
    [("quantity", .ofNat deliverable.quantity)] ++
    Json.given "purpose" (deliverable.purpose.map .text))

def RevisionValue.toJson : RevisionValue → Json
  | .number value => .number (intText value)
  | .text value => .text value

def AgentRevisionRef.toJson (ref : AgentRevisionRef) : Json :=
  .object [("id", .text ref.id), ("revision", ref.revision.toJson)]

/-! ## Units -/

/-- `commonInput`. -/
def commonInput (revision : MarketingPlanRevision) (deliverables : List PlanDeliverable) :
    List (String × Json) :=
  [("planId", .text revision.planId), ("planRevision", .ofNat revision.revision),
    ("deliverables", .array (deliverables.map (·.toJson))), ("quoteRef", revision.quoteRef.toJson)]

/-- One unit of a deliverable. -/
structure DeliverableExpansion where
  deliverableId : String
  deliverableIndex : Nat
  deriving DecidableEq

def DeliverableExpansion.fields (expansion : DeliverableExpansion) : List (String × Json) :=
  [("deliverableId", .text expansion.deliverableId),
    ("deliverableIndex", .ofNat expansion.deliverableIndex)]

/-- Each deliverable, index by index. -/
def expansions (deliverables : List PlanDeliverable) : List DeliverableExpansion :=
  deliverables.flatMap fun deliverable =>
    (List.range deliverable.quantity).map (⟨deliverable.deliverableId, ·⟩)

/-- `declaredInput`, by its fields. -/
def ExecutionUnit.declaredInput (unit : ExecutionUnit) : List (String × Json) :=
  match unit.input with
  | some (.object fields) => fields
  | _ => []

/-- The memory context, on the units that read it. -/
def ExecutionUnit.memoryFields (unit : ExecutionUnit) (memoryContext : Option Json) :
    List (String × Json) :=
  if unit.primitive = some .generate ∨ unit.unitType = "context.read" then
    Json.given "memoryContext" memoryContext
  else []

/-- `stepKey`. -/
def ExecutionUnit.stepKey (unit : ExecutionUnit) : String :=
  let role := ((Json.object unit.declaredInput).field? "role").bind (·.text?)
  (match unit.primitive with
    | some primitive => primitive.text
    | none => "undefined") ++ ":" ++ role.getD ""

/-- A unit with its input: what it declares, what all units carry, and what it carries alone. -/
def compiledUnit (revision : MarketingPlanRevision) (deliverables : List PlanDeliverable)
    (unit : ExecutionUnit) (unitId : String) (own : List (String × Json)) : ExecutionUnit :=
  { unit with
    unitId := unitId
    input := some (.object (unit.declaredInput ++ commonInput revision deliverables ++ own ++
      unit.memoryFields revision.memoryContext)) }

/-- The steps that may repeat. -/
def CarrierUnitRecipe.repeatableSteps (recipe : CarrierUnitRecipe) : List String :=
  (recipe.stepCatalog.filter (·.repeatable)).map (·.key)

/-- The id of an instance of a unit. -/
def instanceId (unitId : String) (index : Nat) : String := unitId ++ "-" ++ toString (index + 1)

/-- **What becomes of a unit**: itself, or one instance for each unit of a deliverable. -/
def expandUnit (recipe : CarrierUnitRecipe) (revision : MarketingPlanRevision)
    (deliverables : List PlanDeliverable) (unit : ExecutionUnit) : List ExecutionUnit :=
  if unit.stepKey ∉ recipe.repeatableSteps then
    [compiledUnit revision deliverables unit unit.unitId []]
  else if (expansions deliverables).length ≤ 1 then
    [compiledUnit revision deliverables unit unit.unitId
      (((expansions deliverables).head?.map (·.fields)).getD [])]
  else (expansions deliverables).mapIdx fun index expansion =>
    compiledUnit revision deliverables unit (instanceId unit.unitId index) expansion.fields

/-- `expandedIds`: the ids of the instances, of a unit that has several. -/
def expandedIds (recipe : CarrierUnitRecipe) (revision : MarketingPlanRevision)
    (deliverables : List PlanDeliverable) (unitId : String) : List String :=
  match recipe.plan.units.reverse.find? (·.unitId = unitId) with
  | some unit => (expandUnit recipe revision deliverables unit).map (·.unitId)
  | none => [unitId]

/-! ## Plans -/

/-- `compiledExecutionPlanSchema.parse`, on an expansion: the bounds it may pass. -/
def parseCompiledPlan (plan : CompiledExecutionPlan) : Except String CompiledExecutionPlan :=
  if plan.units.length < 1 ∨ 200 < plan.units.length then
    throw "units"
  else if 100 < plan.dependencyGroups.length then
    throw "dependencyGroups"
  else pure plan

/-- `buildOneCarrierExecutionPlan`, up to its closing parse. -/
def expandedPlan (revision : MarketingPlanRevision) (carrier : PlanDeliverableCarrier)
    (deliverables : List PlanDeliverable) : CompiledExecutionPlan :=
  let recipe := resolveRecipe carrier
  { recipe.plan with
    units := recipe.plan.units.flatMap (expandUnit recipe revision deliverables)
    executionCapabilities := some CURRENT_COMPILED_EXECUTION_CAPABILITIES
    dependencyGroups := serialGroups (recipe.plan.dependencyGroups.map fun group =>
      { group with unitIds := group.unitIds.flatMap (expandedIds recipe revision deliverables) })
    boundedRetry := [] }

/-- `buildOneCarrierExecutionPlan`. -/
def buildOneCarrierExecutionPlan (revision : MarketingPlanRevision)
    (carrier : PlanDeliverableCarrier) (deliverables : List PlanDeliverable) :
    Except String CompiledExecutionPlan :=
  parseCompiledPlan (expandedPlan revision carrier deliverables)

structure CompiledCarrierExecutionPlan where
  carrier : PlanDeliverableCarrier
  executionPlan : CompiledExecutionPlan

/-- `buildCompiledCarrierExecutionPlans`: the first plan is the stored one, when it is passed. -/
def buildCompiledCarrierExecutionPlans (revision : MarketingPlanRevision)
    (deliverables : Option (List PlanDeliverable) := none)
    (primaryExecutionPlan : Option CompiledExecutionPlan := none) :
    Except String (List CompiledCarrierExecutionPlan) :=
  let deliverables := deliverables.getD revision.deliverables
  let carriers := (deliverables.map (·.kind)).eraseDups
  carriers.zipIdx.mapM fun (carrier, index) => do
    let compiled ← buildOneCarrierExecutionPlan revision carrier
      (deliverables.filter (·.kind = carrier))
    pure ⟨carrier, if index = 0 then primaryExecutionPlan.getD compiled else compiled⟩

end MeiyeAgent
