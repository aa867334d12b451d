import MeiyeAgent.Foundation.Runtime
import Mathlib.Data.Fintype.Defs
import Mathlib.Data.Rat.Defs

/-!
# Harness/BoundedExecution — an execution that stops at the limits it observes

A snapshot carries a limit for each kind of consumption.  A checkpoint looks at the kinds it
observes, in the order of the limits, and suspends at the first one that has reached its limit; the
server resumes by raising that limit.  An observation may name any part of the kinds, and a key may
be present without a value.
-/

open Effect

namespace MeiyeAgent

/-! ## Snapshots -/

/-- `BOUNDED_EXECUTION_LIMITS`, by name. -/
inductive BoundedExecutionLimitName
  | maxIterations
  | maxCostCents
  | maxWallClockMs
  | maxDelegations
  deriving DecidableEq

inductive ConsumptionKey
  | iterations
  | costCents
  | wallClockMs
  | delegations
  deriving DecidableEq

/-- `BOUNDED_EXECUTION_LIMITS`. -/
def boundedExecutionLimits : List BoundedExecutionLimitName :=
  [.maxIterations, .maxCostCents, .maxWallClockMs, .maxDelegations]

/-- The keys of a consumption, as the schema lists them. -/
def consumptionKeys : List ConsumptionKey :=
  [.iterations, .costCents, .wallClockMs, .delegations]

/-- `CONSUMPTION_BY_LIMIT`. -/
def consumptionByLimit : BoundedExecutionLimitName → ConsumptionKey
  | .maxIterations => .iterations
  | .maxCostCents => .costCents
  | .maxWallClockMs => .wallClockMs
  | .maxDelegations => .delegations

def ConsumptionKey.text : ConsumptionKey → String
  | .iterations => "iterations"
  | .costCents => "costCents"
  | .wallClockMs => "wallClockMs"
  | .delegations => "delegations"

theorem mem_consumptionKeys (key : ConsumptionKey) : key ∈ consumptionKeys := by
  cases key <;> decide

theorem mem_boundedExecutionLimits (limit : BoundedExecutionLimitName) :
    limit ∈ boundedExecutionLimits := by
  cases limit <;> decide

inductive StopReason
  | limit_reached
  deriving DecidableEq

/-- `boundedExecutionSnapshotSchema`; an absent limit is one that is `'unset'`. -/
structure BoundedExecutionSnapshot where
  limits : BoundedExecutionLimitName → Option Nat
  requiredLimits : List BoundedExecutionLimitName
  consumption : ConsumptionKey → Nat
  stopReason : Option StopReason
  triggeredLimit : Option BoundedExecutionLimitName

inductive BoundedExecutionThrown
  | zodError
  | resumeError (message : String)
  | error (message : String)
  deriving DecidableEq

/-- `assertCanonicalRequiredLimits`. -/
def canonicalRequiredLimits (requiredLimits : List BoundedExecutionLimitName) : Bool :=
  requiredLimits.Nodup ∧
    requiredLimits = (boundedExecutionLimits.filter (· ∈ requiredLimits)).take requiredLimits.length

/-- `boundedExecutionSnapshotSchema`, the checks. -/
def BoundedExecutionSnapshot.accepted (snapshot : BoundedExecutionSnapshot) : Bool :=
  boundedExecutionLimits.all (fun limit => (snapshot.limits limit).all (isSafeInteger ·)) &&
  consumptionKeys.all (fun key => isSafeInteger (snapshot.consumption key)) &&
  snapshot.requiredLimits.length ≤ 4 &&
  canonicalRequiredLimits snapshot.requiredLimits &&
  snapshot.stopReason.isNone == snapshot.triggeredLimit.isNone &&
  snapshot.triggeredLimit.all fun limit => (snapshot.limits limit).isSome

def BoundedExecutionSnapshot.parse (snapshot : BoundedExecutionSnapshot) :
    Except BoundedExecutionThrown BoundedExecutionSnapshot :=
  if snapshot.accepted then .ok snapshot else .error .zodError

/-! ## Observations -/

/-- A value a key of an observation may be present with. -/
inductive ObservedFact
  | undefined
  | notNumber
  | number (value : ℚ)

/-- `Partial<BoundedExecutionConsumption>`, as it is handed in. -/
abbrev ObservedConsumption := ConsumptionKey → Option ObservedFact

/-- `z.number().int().nonnegative().safe()`. -/
def safeCount (value : ℚ) : Option Nat :=
  if value.den = 1 ∧ 0 ≤ value.num ∧ isSafeInteger value.num then some value.num.toNat else none

/-- One key of `boundedExecutionConsumptionSchema.partial()`; a key may be present and undefined. -/
def ObservedFact.parse : ObservedFact → Except BoundedExecutionThrown (Option Nat)
  | undefined => .ok none
  | notNumber => .error .zodError
  | number value => match safeCount value with
    | some count => .ok (some count)
    | none => .error .zodError

/-- An observation that has been parsed: the keys that are present. -/
abbrev ParsedConsumption := List (ConsumptionKey × Option Nat)

/-- `boundedExecutionConsumptionSchema.partial().parse`. -/
def ObservedConsumption.parse (observed : ObservedConsumption) :
    Except BoundedExecutionThrown ParsedConsumption :=
  (consumptionKeys.filterMap fun key => (observed key).map (key, ·)).mapM fun (key, fact) =>
    return (key, ← fact.parse)

/-- `Object.hasOwn(observed, key)`. -/
def ParsedConsumption.has (observed : ParsedConsumption) (key : ConsumptionKey) : Bool :=
  observed.any (·.1 = key)

/-- `assertMonotonicConsumption`. -/
def assertMonotonicConsumption (previous : ConsumptionKey → Nat) (current : ParsedConsumption) :
    Except BoundedExecutionThrown Unit :=
  match current.find? fun (key, count) => count.any (· < previous key) with
  | some (key, _) =>
    .error (.error s!"Bounded execution consumption cannot move backwards for {key.text}.")
  | none => .ok ()

/-- `boundedExecutionConsumptionSchema.parse({ ...previous, ...observed })`: an undefined value is
no count. -/
def mergeConsumption (previous : ConsumptionKey → Nat) (observed : ParsedConsumption) :
    Except BoundedExecutionThrown (ConsumptionKey → Nat) :=
  if observed.all (·.2.isSome) then
    .ok fun key => ((observed.find? (·.1 = key)).bind (·.2)).getD (previous key)
  else .error .zodError

/-! ## The controller -/

def resumeFirst : BoundedExecutionThrown :=
  .resumeError "A suspended execution must be resumed before it can consume more resources."

/-- `advanceBoundedExecution`. -/
def advanceBoundedExecution (input : BoundedExecutionSnapshot)
    (observedConsumption : ObservedConsumption) :
    Except BoundedExecutionThrown BoundedExecutionSnapshot := do
  let snapshot ← input.parse
  if snapshot.stopReason.isSome then throw resumeFirst
  let observed ← observedConsumption.parse
  if observed.isEmpty then
    throw (.error "Advancing bounded execution requires at least one observed consumption fact.")
  assertMonotonicConsumption snapshot.consumption observed
  let consumption ← mergeConsumption snapshot.consumption observed
  { snapshot with consumption }.parse

/-- `executionLimitReached`. -/
def executionLimitReached (limit : Option Nat) (observed : Bool) (consumed : Nat) : Bool :=
  observed && limit.any (· ≤ consumed)

structure BoundedExecutionObservation (α : Type) where
  consumption : ObservedConsumption
  currentBest : α
  unmetExplanation : String

inductive BoundedExecutionDecision (α : Type)
  | continue (snapshot : BoundedExecutionSnapshot)
  | suspended (snapshot : BoundedExecutionSnapshot) (currentBest : α) (unmetExplanation : String)

def BoundedExecutionDecision.snapshot {α : Type} :
    BoundedExecutionDecision α → BoundedExecutionSnapshot
  | .continue snapshot => snapshot
  | .suspended snapshot _ _ => snapshot

/-- The limit a checkpoint stops at: the first one observed to be reached. -/
def BoundedExecutionSnapshot.triggered (snapshot : BoundedExecutionSnapshot)
    (observed : ParsedConsumption) (consumption : ConsumptionKey → Nat) :
    Option BoundedExecutionLimitName :=
  boundedExecutionLimits.find? fun limit =>
    executionLimitReached (snapshot.limits limit) (observed.has (consumptionByLimit limit))
      (consumption (consumptionByLimit limit))

/-- The answer of a checkpoint that has found `triggeredLimit`. -/
def decideBoundedExecution {α : Type} (next : BoundedExecutionSnapshot)
    (observation : BoundedExecutionObservation α) :
    Option BoundedExecutionLimitName →
      Except BoundedExecutionThrown (BoundedExecutionDecision α)
  | none => .ok (.continue next)
  | some _ =>
    if Text.isBlank observation.unmetExplanation then
      .error (.error "A bounded execution suspension requires an unmet explanation.")
    else .ok (.suspended next observation.currentBest (Text.trim observation.unmetExplanation))

/-- `evaluateBoundedExecution`. -/
def evaluateBoundedExecution {α : Type} (input : BoundedExecutionSnapshot)
    (observation : BoundedExecutionObservation α) :
    Except BoundedExecutionThrown (BoundedExecutionDecision α) := do
  let snapshot ← input.parse
  let observed ← observation.consumption.parse
  if observed.isEmpty then
    throw (.error
      "A bounded execution checkpoint requires at least one observed consumption fact.")
  assertMonotonicConsumption snapshot.consumption observed
  let consumption ← mergeConsumption snapshot.consumption observed
  if snapshot.stopReason.isSome then throw resumeFirst
  let triggeredLimit := snapshot.triggered observed consumption
  let next ← { snapshot with
    consumption
    stopReason := triggeredLimit.map fun _ => .limit_reached
    triggeredLimit }.parse
  decideBoundedExecution next observation triggeredLimit

def raisedLimitMessage : String :=
  "The server-provided limit must be a safe integer above both the prior limit and " ++
    "current consumption."

/-- The value a limit is raised to: above the limit and above what is consumed. -/
def raisedLimit (previous : Option Nat) (consumed : Nat) (value : ℚ) :
    Except BoundedExecutionThrown Nat :=
  match previous with
  | none => .error (.resumeError
      "A suspended execution must reach its triggered limit before it can resume.")
  | some previous =>
    if consumed < previous then
      .error (.resumeError
        "A suspended execution must reach its triggered limit before it can resume.")
    else match safeCount value with
      | none => .error (.resumeError raisedLimitMessage)
      | some raised =>
        if raised ≤ previous ∨ raised ≤ consumed then
          .error (.resumeError raisedLimitMessage)
        else .ok raised

/-- `resumeWithRaisedServerLimit`. -/
def resumeWithRaisedServerLimit (input : BoundedExecutionSnapshot)
    (limit : BoundedExecutionLimitName) (value : ℚ) :
    Except BoundedExecutionThrown BoundedExecutionSnapshot := do
  let snapshot ← input.parse
  if snapshot.stopReason ≠ some .limit_reached ∨ snapshot.triggeredLimit ≠ some limit then
    throw (.resumeError "The raised limit must match the limit that suspended the execution.")
  let raised ← raisedLimit (snapshot.limits limit)
    (snapshot.consumption (consumptionByLimit limit)) value
  { snapshot with
    limits := Function.update snapshot.limits limit (some raised)
    stopReason := none
    triggeredLimit := none }.parse

end MeiyeAgent
