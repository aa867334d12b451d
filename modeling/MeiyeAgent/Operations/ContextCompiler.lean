import Mathlib.Logic.Function.Basic
import MeiyeAgent.Foundation.CanonicalJson
import MeiyeAgent.Machinery.OrderedMap

/-!
# Operations/ContextCompiler — the context of a task, compiled

Contributions name a place, a dimension and a key.  At each place the first of them is taken, by a
comparison that goes by the dates of facts between two facts and by the layers otherwise.  The texts
of the contributions are those the schemas have read, and a JSON value carries that it is one.
-/

namespace MeiyeAgent

/-! ## Facts of a store -/

/-- What a fact of a store is about. -/
inductive StoreFactKind
  | service | price | discount | group_buy | qualification | fulfillment | staff_experience
  | customer_case | other
  deriving DecidableEq

/-- How a fact came to be known. -/
inductive StoreFactSourceKind
  | verified_api | import_ | screenshot_extraction | user_confirmation | aggregate_statistics
  deriving DecidableEq

/-- Where a fact was taken from, and when. -/
structure StoreFactSource where
  kind : StoreFactSourceKind
  referenceId : String
  capturedAt : String
  deriving DecidableEq

/-- A fact at one of its revisions. -/
structure FactRevision where
  factId : String
  revision : Nat
  deriving DecidableEq

/-- A fact as a contribution brings it along. -/
structure FactSnapshot where
  factId : String
  kind : StoreFactKind
  revision : Nat
  source : StoreFactSource
  effectiveFrom : String
  expiresAt : Option String
  revoked : Bool := false
  deriving DecidableEq

/-! ## Contributions -/

/-- The sides of a context. -/
inductive ContextDimension
  | promotion_task | traffic_opportunity | expression_identity | platform_mechanism
  | store_facts_assets | conversion_action
  deriving DecidableEq

/-- The dimensions, in the order they are resolved. -/
def contextDimensions : List ContextDimension :=
  [.promotion_task, .traffic_opportunity, .expression_identity, .platform_mechanism,
    .store_facts_assets, .conversion_action]

/-- What a contribution rests on. -/
inductive ContextPriorityLayer
  | current_instruction | current_fact | confirmed_asset | confirmed_preference | industry_recipe
  | model_knowledge
  deriving DecidableEq

/-- The layers, the strongest first. -/
def contextPriorityLayers : List ContextPriorityLayer :=
  [.current_instruction, .current_fact, .confirmed_asset, .confirmed_preference, .industry_recipe,
    .model_knowledge]

/-- Where a contribution was found. -/
inductive ContextPool
  | industry | store_personal | current_signal
  deriving DecidableEq

/-- How well a capability is evidenced. -/
inductive CapabilityEvidenceStatus
  | verified | assisted | unavailable
  deriving DecidableEq

/-- A value as the schemas accept it. -/
abbrev JsonValue := {j : Json // j.WellFormed}

/-- A value offered for a key of a dimension. -/
structure ContextContribution where
  dimension : ContextDimension
  key : String
  value : JsonValue
  layer : ContextPriorityLayer
  pool : ContextPool
  sourceRef : String
  capabilityStatus : Option CapabilityEvidenceStatus := none
  factRevision : Option FactRevision := none
  factSnapshot : Option FactSnapshot := none
  /-- a snapshot is of the revision -/
  snapshot_matches : ∀ snapshot, factSnapshot = some snapshot →
    factRevision = some ⟨snapshot.factId, snapshot.revision⟩ := by simp

/-- What a place of the payload holds. -/
structure ResolvedContextValue where
  value : JsonValue
  layer : ContextPriorityLayer
  pool : ContextPool
  sourceRef : String
  factSnapshot : Option FactSnapshot

/-- The place of a layer: less is stronger. -/
def priority (layer : ContextPriorityLayer) : Int := contextPriorityLayers.idxOf layer

/-- A signal of the moment needs an instruction, or evidence behind it. -/
def eligible (contribution : ContextContribution) : Bool :=
  if contribution.pool ≠ .current_signal then true
  else if contribution.layer = .current_instruction then true
  else contribution.capabilityStatus = some .verified ||
    contribution.capabilityStatus = some .assisted

/-- `a || b`. -/
def orElse (a b : Int) : Int := if a = 0 then b else a

/-- The names every object has. -/
def objectNames : List String :=
  ["constructor", "__defineGetter__", "__defineSetter__", "hasOwnProperty", "__lookupGetter__",
    "__lookupSetter__", "isPrototypeOf", "propertyIsEnumerable", "toString", "valueOf", "__proto__",
    "toLocaleString"]

section Compiler

variable (host : Host)

/-- The later fact first, then the later revision of it. -/
def factOrder (left right : FactSnapshot) : Int :=
  orElse ((Num.sub (host.dateParse right.effectiveFrom)
      (host.dateParse left.effectiveFrom)).getD 0) ((right.revision : Int) - left.revision)

/-- Two facts by their dates; anything else is left to the layers. -/
def compareFacts : Option FactSnapshot → Option FactSnapshot → Int
  | some left, some right => factOrder host left right
  | _, _ => 0

/-- A value, with its fields in order. -/
def canonicalValue (value : JsonValue) : JsonValue :=
  ⟨Json.canonicalize host value, Json.wellFormed_canonicalize value.val value.property⟩

/-- What is kept of the contribution that is taken. -/
def resolve (contribution : ContextContribution) : ResolvedContextValue where
  value := canonicalValue host contribution.value
  layer := contribution.layer
  pool := contribution.pool
  sourceRef := contribution.sourceRef
  factSnapshot := contribution.factSnapshot

/-- Which of two contributions comes first. -/
def compareContributions (left right : ContextContribution) : Int :=
  orElse (compareFacts host left.factSnapshot right.factSnapshot)
    (orElse (priority left.layer - priority right.layer)
      (orElse (host.localeCompare left.sourceRef right.sourceRef)
        (host.localeCompare (Json.canonicalJson host left.value)
          (Json.canonicalJson host right.value))))

/-- The contributions to a dimension, in the order they are tried. -/
def candidates (contributions : List ContextContribution) (dimension : ContextDimension) :
    List ContextContribution :=
  sortBy (fun left right => some (orElse (host.localeCompare left.key right.key)
      (compareContributions host left right)))
    (contributions.filter fun item => item.dimension = dimension && eligible item)

/-- The places of a dimension taken so far, and the facts selected so far. -/
structure ContextSelection where
  places : OrderedMap String ResolvedContextValue := .empty
  selectedFacts : OrderedMap String Nat := .empty

/-- The revision a candidate selects of its fact. -/
def selectFact (facts : OrderedMap String Nat) (candidate : ContextContribution) :
    OrderedMap String Nat :=
  match candidate.factRevision with
  | some fact => facts.set fact.factId fact.revision
  | none => facts

/-- `key in object`: the names every object has are there from the start. -/
def takePlace (selection : ContextSelection) (candidate : ContextContribution) :
    ContextSelection :=
  if (selection.places.get? candidate.key).isSome ∨ candidate.key ∈ objectNames then selection
  else
    { places := selection.places.set candidate.key (resolve host candidate)
      selectedFacts := selectFact selection.selectedFacts candidate }

/-- One dimension: its candidates take their places in turn. -/
def selectDimension (contributions : List ContextContribution)
    (selectedFacts : OrderedMap String Nat) (dimension : ContextDimension) : ContextSelection :=
  (candidates host contributions dimension).foldl (takePlace host) { selectedFacts }

/-- The dimensions one after another; the facts selected go from one to the next. -/
def selectDimensions (contributions : List ContextContribution) :
    (ContextDimension → OrderedMap String ResolvedContextValue) × OrderedMap String Nat :=
  contextDimensions.foldl (fun (dimensions, selectedFacts) dimension =>
    let selection := selectDimension host contributions selectedFacts dimension
    (Function.update dimensions dimension selection.places, selection.selectedFacts))
    (fun _ => .empty, .empty)

/-! ## The payload -/

/-- A revision, as a number or a text. -/
inductive ContextSourceRevision
  | number (revision : Nat)
  | text (revision : String)
  deriving DecidableEq

/-- The revisions a context was compiled from. -/
structure ContextSourceRevisions where
  facts : ContextSourceRevision
  assets : ContextSourceRevision
  identity : ContextSourceRevision
  rights : ContextSourceRevision
  preferences : ContextSourceRevision
  recipe : ContextSourceRevision
  platformRules : ContextSourceRevision
  currentSignal : ContextSourceRevision
  deriving DecidableEq

/-- A compiled context. -/
structure ContextBundlePayload where
  workspaceId : String
  taskId : String
  sourceRevisions : ContextSourceRevisions
  dimensions : ContextDimension → OrderedMap String ResolvedContextValue
  referencedFactRevisions : List FactRevision

/-- What a context is compiled from. -/
structure CompileContextBundleInput where
  workspaceId : String
  taskId : String
  sourceRevisions : ContextSourceRevisions
  contributions : List ContextContribution

/-- The context of the contributions. -/
def compilePayload (input : CompileContextBundleInput) : ContextBundlePayload :=
  let (dimensions, selectedFacts) := selectDimensions host input.contributions
  { workspaceId := input.workspaceId
    taskId := input.taskId
    sourceRevisions := input.sourceRevisions
    dimensions
    referencedFactRevisions := sortBy (fun left right =>
        some (host.localeCompare left.factId right.factId))
      (selectedFacts.entries.map fun (factId, revision) => ⟨factId, revision⟩) }

end Compiler

/-! ## The payload as JSON -/

/-- The kind, as it is written. -/
def StoreFactKind.text : StoreFactKind → String
  | .service => "service" | .price => "price" | .discount => "discount"
  | .group_buy => "group_buy" | .qualification => "qualification"
  | .fulfillment => "fulfillment" | .staff_experience => "staff_experience"
  | .customer_case => "customer_case" | .other => "other"

/-- The source, as it is written. -/
def StoreFactSourceKind.text : StoreFactSourceKind → String
  | .verified_api => "verified_api" | .import_ => "import"
  | .screenshot_extraction => "screenshot_extraction" | .user_confirmation => "user_confirmation"
  | .aggregate_statistics => "aggregate_statistics"

/-- The dimension, as it is written. -/
def ContextDimension.text : ContextDimension → String
  | .promotion_task => "promotion_task" | .traffic_opportunity => "traffic_opportunity"
  | .expression_identity => "expression_identity" | .platform_mechanism => "platform_mechanism"
  | .store_facts_assets => "store_facts_assets" | .conversion_action => "conversion_action"

/-- The layer, as it is written. -/
def ContextPriorityLayer.text : ContextPriorityLayer → String
  | .current_instruction => "current_instruction" | .current_fact => "current_fact"
  | .confirmed_asset => "confirmed_asset" | .confirmed_preference => "confirmed_preference"
  | .industry_recipe => "industry_recipe" | .model_knowledge => "model_knowledge"

/-- The pool, as it is written. -/
def ContextPool.text : ContextPool → String
  | .industry => "industry" | .store_personal => "store_personal"
  | .current_signal => "current_signal"

def StoreFactSource.toJson (source : StoreFactSource) : Json :=
  .object [("kind", .text source.kind.text), ("referenceId", .text source.referenceId),
    ("capturedAt", .text source.capturedAt)]

def FactSnapshot.toJson (snapshot : FactSnapshot) : Json :=
  .object ([("factId", .text snapshot.factId), ("kind", .text snapshot.kind.text),
    ("revision", .number (Nat.repr snapshot.revision)), ("source", snapshot.source.toJson),
    ("effectiveFrom", .text snapshot.effectiveFrom),
    ("expiresAt", (snapshot.expiresAt.map Json.text).getD .null)] ++
    if snapshot.revoked then [("revisionKind", .text "revocation")] else [])

def ResolvedContextValue.toJson (value : ResolvedContextValue) : Json :=
  .object ([("value", value.value.val), ("layer", .text value.layer.text),
    ("pool", .text value.pool.text), ("sourceRef", .text value.sourceRef)] ++
    (value.factSnapshot.map fun snapshot => ("factSnapshot", snapshot.toJson)).toList)

def ContextSourceRevision.toJson : ContextSourceRevision → Json
  | .number revision => .number (Nat.repr revision)
  | .text revision => .text revision

def ContextSourceRevisions.toJson (revisions : ContextSourceRevisions) : Json :=
  .object [("facts", revisions.facts.toJson), ("assets", revisions.assets.toJson),
    ("identity", revisions.identity.toJson), ("rights", revisions.rights.toJson),
    ("preferences", revisions.preferences.toJson), ("recipe", revisions.recipe.toJson),
    ("platformRules", revisions.platformRules.toJson),
    ("currentSignal", revisions.currentSignal.toJson)]

def FactRevision.toJson (fact : FactRevision) : Json :=
  .object [("factId", .text fact.factId), ("revision", .number (Nat.repr fact.revision))]

def contextBundleSerializerVersion : String := "context-bundle-c14n-v1"

/-- The context as it is hashed, its version first. -/
def ContextBundlePayload.toJson (payload : ContextBundlePayload) : Json :=
  .object [("serializerVersion", .text contextBundleSerializerVersion),
    ("workspaceId", .text payload.workspaceId), ("taskId", .text payload.taskId),
    ("sourceRevisions", payload.sourceRevisions.toJson),
    ("dimensions", .object (contextDimensions.map fun dimension => (dimension.text,
      .object (Json.enumerated ((payload.dimensions dimension).entries.map fun (key, value) =>
        (key, value.toJson)))))),
    ("referencedFactRevisions", .array (payload.referencedFactRevisions.map FactRevision.toJson))]

section Compiler

variable (host : Host) (digest : String → String)

/-- The digest of the canonical text. -/
def hashContextBundlePayload (payload : ContextBundlePayload) : String :=
  digest (Json.canonicalJson host payload.toJson)

/-- A context and its hash. -/
structure CompiledContextBundle where
  payload : ContextBundlePayload
  hash : String

/-- A context is compiled, and hashed. -/
def compileContextBundle (input : CompileContextBundleInput) : CompiledContextBundle :=
  let payload := compilePayload host input
  { payload, hash := hashContextBundlePayload host digest payload }

end Compiler

end MeiyeAgent
