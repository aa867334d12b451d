import MeiyeAgent.Foundation.JsonText
import MeiyeAgent.Harness.ExecutionPlans
import MeiyeAgent.Machinery.OrderedMap

/-!
# Harness/CarrierExecutor — a plan run unit by unit

The executor resolves a carrier, checks its plan, and hands the scheduled units on, one after
another: to the effect store, which runs a handler once, or to the handler itself.

* `executeCompiledCarrierPlan` — the entry.
* `executeScheduled_spec` — **what a schedule does**: its units are reached one after another, to
  the end or up to where it stops.
* `Reached.ran` — the handlers that run are those of the units that were not completed.
-/

open Effect

namespace MeiyeAgent

/-! ## Before the first unit -/

structure CompiledCarrierExecutorContext where
  lens : Option ExecutionLens := none
  frozenExecutionPlan : Option CompiledExecutionPlan := none

structure CompiledCarrierResolution where
  carrier : PlanDeliverableCarrier
  recipe : CarrierUnitRecipe
  executionPlan : CompiledExecutionPlan
  usedCanonicalRecipe : Bool

/-- `useFrozen`. -/
def CompiledExecutionPlan.usable (plan : CompiledExecutionPlan) : Bool :=
  plan.schemaVersion = COMPILED_EXECUTION_PLAN_SCHEMA_VERSION ∧ plan.units ≠ []

/-- `resolveCompiledCarrierExecution`, on the canonical registry. -/
def resolveCompiledCarrierExecution (context : CompiledCarrierExecutorContext) :
    CompiledCarrierResolution :=
  let carrier := lensToContentCarrier context.lens
  let recipe := resolveRecipe carrier
  let frozen := context.frozenExecutionPlan.filter (·.usable)
  ⟨carrier, recipe, frozen.getD recipe.plan, frozen.isNone⟩

/-- What an interpreter would be found by. -/
def FORBIDDEN_WORDS : List String :=
  ["conditionalNodes", "ConditionalNode", "grammar", "ifElse", "dynamicExecutable"]

/-- The word stands between quotes in the value as it is written. -/
def Json.includesQuoted (j : Json) (word : String) : Bool :=
  decide (Json.quoted word.toList <:+: j.chars)

/-- `assertNoGrammarInterpreter`. -/
def assertNoGrammarInterpreter (plan : CompiledExecutionPlan) : Except String Unit :=
  match FORBIDDEN_WORDS.find? plan.toJson.includesQuoted with
  | some key => throw ("CompiledExecutionPlan must not embed " ++ key ++
      " (plan-as-data only; no grammar interpreter).")
  | none => pure ()

/-- `compiledUnitRole`. -/
def compiledUnitRole (unit : ExecutionUnit) : Except String String :=
  match (unit.input.bind (·.field? "role")).bind (·.text?) with
  | some role =>
    if Text.trim role = "" then
      throw ("Execution unit " ++ unit.unitId ++
        " declares no step role; the executor cannot dispatch it.")
    else pure role
  | none => throw ("Execution unit " ++ unit.unitId ++
      " declares no step role; the executor cannot dispatch it.")

/-- The name of the primitive of a unit; a template writes a missing one out. -/
def ExecutionUnit.primitiveText (unit : ExecutionUnit) : String :=
  match unit.primitive with
  | some primitive => primitive.text
  | none => "undefined"

/-- `compiledStepKey`. -/
def compiledStepKey (unit : ExecutionUnit) : Except String String := do
  let role ← compiledUnitRole unit
  pure (unit.primitiveText ++ ":" ++ role)

namespace CarrierUnitRecipe

def catalogKeys (recipe : CarrierUnitRecipe) : List String := recipe.stepCatalog.map (·.key)

/-- Whether the step at an index of the catalogue may repeat. -/
def repeatableAt (recipe : CarrierUnitRecipe) (index : Nat) : Bool :=
  (recipe.stepCatalog[index]?.map (·.repeatable)).getD false

/-- Where the step of a unit stands in the catalogue. -/
def stepIndex (recipe : CarrierUnitRecipe) (unit : ExecutionUnit) : Except String Nat := do
  let key ← compiledStepKey unit
  match recipe.catalogKeys.idxOf? key with
  | some index => pure index
  | none => throw ("Frozen CompiledExecutionPlan unit " ++ unit.unitId ++ " names step " ++ key ++
      ", which the " ++ recipe.carrier.text ++ " carrier does not implement.")

/-- A unit against the units before it: the index of the last of them, and the keys of all. -/
def checkUnit (recipe : CarrierUnitRecipe) (cursor : Nat) (seen : List String)
    (unit : ExecutionUnit) : Except String (Nat × String) := do
  if unit.unitType ∉ recipe.plan.units.map (·.unitType) then
    throw ("Frozen CompiledExecutionPlan unit " ++ unit.unitId ++ " uses unitType " ++
      unit.unitType ++ ", which does not belong to the " ++ recipe.carrier.text ++ " carrier.")
  let key ← compiledStepKey unit
  let index ← recipe.stepIndex unit
  if index < cursor then
    throw ("Frozen CompiledExecutionPlan unit " ++ unit.unitId ++ " places " ++ key ++
      " out of the " ++ recipe.carrier.text ++ " step order.")
  if key ∈ seen ∧ recipe.repeatableAt index = false then
    throw ("Frozen CompiledExecutionPlan repeats non-repeatable step " ++ key ++ " for carrier " ++
      recipe.carrier.text ++ ".")
  pure (index, key)

/-- The units one after another; the keys they name. -/
def checkUnits (recipe : CarrierUnitRecipe) :
    Nat → List String → List ExecutionUnit → Except String (List String)
  | _, seen, [] => pure seen
  | cursor, seen, unit :: units => do
    let (index, key) ← recipe.checkUnit cursor seen unit
    recipe.checkUnits index (key :: seen) units

end CarrierUnitRecipe

/-- `assertCompiledCarrierPlanCompatible`. -/
def assertCompiledCarrierPlanCompatible (resolution : CompiledCarrierResolution) :
    Except String Unit := do
  let recipe := resolution.recipe
  let units := resolution.executionPlan.units
  if units.getLast?.bind (·.primitive) ≠ some .record then
    throw "CompiledExecutionPlan must end with a record unit that owns delivery."
  let seen ← recipe.checkUnits 0 [] units
  match recipe.stepCatalog.find? fun step => step.required ∧ step.key ∉ seen with
  | some step => throw ("Frozen CompiledExecutionPlan omits required step " ++ step.key ++
      " for carrier " ++ resolution.carrier.text ++ ".")
  | none => pure ()

/-- A plan that declares its capabilities keeps to them. -/
def assertCapabilities (plan : CompiledExecutionPlan) : Except String Unit :=
  match plan.executionCapabilities.bind fun _ => currentExecutionPlanCapabilityViolation plan with
  | some violation => throw ("Current serial CompiledExecutionPlan is invalid: " ++ violation ++
      "; no retry or cache policies are executable.")
  | none => pure ()

/-- Every unit is scheduled once, by the count of the schedule. -/
def assertScheduledOnce (plan : CompiledExecutionPlan) : Except String Unit :=
  if plan.scheduled.length ≠ plan.units.length ∨ ¬ plan.scheduled.Nodup then
    throw "Every execution unit must appear exactly once in dependencyGroups."
  else pure ()

/-- Every check that is made before the first unit. -/
def assertExecutable (resolution : CompiledCarrierResolution) : Except String Unit := do
  assertCapabilities resolution.executionPlan
  assertNoGrammarInterpreter resolution.executionPlan
  assertCompiledCarrierPlanCompatible resolution
  assertScheduledOnce resolution.executionPlan

/-! ## Units -/

/-- What an execution throws: the refusal of a plan, or what a handler threw. -/
inductive ExecutorThrown (ε : Type)
  | invalid (message : String)
  | primitive (error : ε)

/-- A handler that was run, and whether it returned. -/
structure PrimitiveRun where
  unit : ExecutionUnit
  completed : Bool

/-- What an execution leaves: the effects that are kept, the units that were reached, and the
handlers that ran. -/
structure ExecutorState (σ : Type) where
  store : σ
  reached : List ExecutionUnit := []
  ran : List PrimitiveRun := []

/-- **An effect store**: what it keeps for a key, and what keeping does.  An operation whose key
has an output is not run again. -/
structure PrimitiveEffectStore (σ : Type) where
  completed : σ → String → Option Json
  complete : σ → String → Json → σ
  completed_other : ∀ {s key key' output}, key' ≠ key →
    completed (complete s key output) key' = completed s key'

/-- `createMemoryPrimitiveEffectStore`. -/
def createMemoryPrimitiveEffectStore : PrimitiveEffectStore (OrderedMap String Json) where
  completed := OrderedMap.get?
  complete := OrderedMap.set
  completed_other := OrderedMap.get?_set_ne

/-- `immediatePrimitiveEffectStore`. -/
def immediatePrimitiveEffectStore : PrimitiveEffectStore Unit where
  completed _ _ := none
  complete _ _ _ := ()
  completed_other _ := rfl

/-- The handlers; an answer may depend on all that ran before. -/
abbrev PrimitiveHandlers (ε : Type) :=
  List PrimitiveRun → CompiledPrimitiveId → ExecutionUnit → OrderedMap String Json → Except ε Json

/-- What an execution is given beside its plan. -/
structure Execution (σ ε : Type) where
  handlers : PrimitiveHandlers ε
  effectStore : PrimitiveEffectStore σ
  executionId : String
  selfDurablePrimitives : List CompiledPrimitiveId := []

/-- `unitsById`: the last unit of an id. -/
def CompiledExecutionPlan.unitById? (plan : CompiledExecutionPlan) (unitId : String) :
    Option ExecutionUnit :=
  plan.units.reverse.find? (·.unitId = unitId)

/-- The unit of an id, and its primitive. -/
def CompiledExecutionPlan.bound (plan : CompiledExecutionPlan) (unitId : String) :
    Except String (ExecutionUnit × CompiledPrimitiveId) :=
  match plan.unitById? unitId with
  | none => throw ("Dependency group references unknown unit " ++ unitId ++ ".")
  | some unit =>
    match unit.primitive with
    | none => throw ("Execution unit " ++ unit.unitId ++ " has no primitive binding.")
    | some primitive => pure (unit, primitive)

structure PrimitiveResult where
  unitId : String
  primitive : CompiledPrimitiveId
  output : Json

namespace Execution

variable {σ ε : Type}

def effectKey (x : Execution σ ε) (unitId : String) : String :=
  "compiled-primitive:" ++ x.executionId ++ ":" ++ unitId

/-- The handler of a unit runs. -/
def operation (x : Execution σ ε) (primitive : CompiledPrimitiveId) (unit : ExecutionUnit)
    (priorOutputs : OrderedMap String Json) :
    EStateM (ExecutorThrown ε) (ExecutorState σ) Json := do
  let s : ExecutorState σ ← get
  let answer := x.handlers s.ran primitive unit priorOutputs
  set (⟨s.store, s.reached, s.ran ++ [⟨unit, answer.isOk⟩]⟩ : ExecutorState σ)
  check (answer.mapError .primitive)

/-- `effectStore.run`. -/
def runEffect (x : Execution σ ε) (key : String)
    (operation : EStateM (ExecutorThrown ε) (ExecutorState σ) Json) :
    EStateM (ExecutorThrown ε) (ExecutorState σ) Json := do
  let s : ExecutorState σ ← get
  match x.effectStore.completed s.store key with
  | some output => pure output
  | none => do
    let output ← operation
    modify fun s => { s with store := x.effectStore.complete s.store key output }
    pure output

/-- A unit is reached: a self-durable one leaves a marker, and its handler runs each time. -/
def dispatch (x : Execution σ ε) (priorOutputs : OrderedMap String Json) (unit : ExecutionUnit)
    (primitive : CompiledPrimitiveId) : EStateM (ExecutorThrown ε) (ExecutorState σ) Json := do
  modify fun s => { s with reached := s.reached ++ [unit] }
  let key := x.effectKey unit.unitId
  let operation := x.operation primitive unit priorOutputs
  if primitive ∈ x.selfDurablePrimitives then
    let _ ← x.runEffect key (pure (.object [("admitted", .bool true)]))
    operation
  else x.runEffect key operation

def executeUnit (x : Execution σ ε) (plan : CompiledExecutionPlan)
    (priorOutputs : OrderedMap String Json) (unitId : String) :
    EStateM (ExecutorThrown ε) (ExecutorState σ) PrimitiveResult := do
  let (unit, primitive) ← check ((plan.bound unitId).mapError .invalid)
  let output ← x.dispatch priorOutputs unit primitive
  pure ⟨unit.unitId, primitive, output⟩

/-- The loop of `executePrimitiveUnits`. -/
def executeScheduled (x : Execution σ ε) (plan : CompiledExecutionPlan) :
    List String → OrderedMap String Json →
      EStateM (ExecutorThrown ε) (ExecutorState σ) (List PrimitiveResult)
  | [], _ => pure []
  | unitId :: rest, priorOutputs => do
    let result ← x.executeUnit plan priorOutputs unitId
    let results ← x.executeScheduled plan rest (priorOutputs.set result.unitId result.output)
    pure (result :: results)

end Execution

/-- The output of the record unit. -/
def recordOutput (outputs : List PrimitiveResult) : Except String Json :=
  match outputs.getLast?.filter (·.primitive = .record) with
  | some terminal => pure terminal.output
  | none => throw "Missing record output."

/-- `executeCompiledCarrierPlan`. -/
def executeCompiledCarrierPlan {σ ε : Type} (x : Execution σ ε)
    (context : CompiledCarrierExecutorContext) :
    EStateM (ExecutorThrown ε) (ExecutorState σ) Json := do
  let resolution := resolveCompiledCarrierExecution context
  check ((assertExecutable resolution).mapError .invalid)
  let plan := resolution.executionPlan
  let outputs ← x.executeScheduled plan plan.scheduled .empty
  check ((recordOutput outputs).mapError .invalid)

/-! ## What a unit does -/

namespace Execution

variable {σ ε : Type} {x : Execution σ ε} {s s' : ExecutorState σ} {plan : CompiledExecutionPlan}
  {unit : ExecutionUnit} {units : List ExecutionUnit}

/-- The handler of a self-durable unit runs at every attempt. -/
def selfDurable (x : Execution σ ε) (unit : ExecutionUnit) : Bool :=
  unit.primitive.any (· ∈ x.selfDurablePrimitives)

/-- Whether something is kept for a unit. -/
def keeps (x : Execution σ ε) (store : σ) (unitId : String) : Bool :=
  (x.effectStore.completed store (x.effectKey unitId)).isSome

/-- Some handler throws the error. -/
def Throws (x : Execution σ ε) (error : ε) : Prop :=
  ∃ ran primitive unit priorOutputs, x.handlers ran primitive unit priorOutputs = .error error

/-- **What reaching a unit does**: its output is replayed, or its handler runs. -/
inductive Dispatched (x : Execution σ ε) (s : ExecutorState σ) (unit : ExecutionUnit) :
    ExecutorState σ → Prop
  | replayed (hdurable : x.selfDurable unit = false) (hkept : x.keeps s.store unit.unitId = true) :
      Dispatched x s unit ⟨s.store, s.reached ++ [unit], s.ran⟩
  | ran (store : σ) (completed : Bool)
      (hruns : x.selfDurable unit = true ∨ x.keeps s.store unit.unitId = false)
      (hstore : store = s.store ∨
        ∃ output, store = x.effectStore.complete s.store (x.effectKey unit.unitId) output)
      (hkept : x.selfDurable unit = false → completed = true →
        ∃ output, store = x.effectStore.complete s.store (x.effectKey unit.unitId) output) :
      Dispatched x s unit ⟨store, s.reached ++ [unit], s.ran ++ [⟨unit, completed⟩]⟩

variable {primitive : CompiledPrimitiveId} {priorOutputs : OrderedMap String Json}

theorem operation_spec : Wp (x.operation primitive unit priorOutputs) s
      (fun _ s' => s' = ⟨s.store, s.reached, s.ran ++ [⟨unit, true⟩]⟩)
      (fun thrown s' => s' = ⟨s.store, s.reached, s.ran ++ [⟨unit, false⟩]⟩ ∧
        ∃ error, thrown = .primitive error ∧ x.Throws error) := by
  simp only [operation, wp_bind, wp_get, wp_set, wp_check]
  cases hanswer : x.handlers s.ran primitive unit priorOutputs with
  | ok output => exact ⟨fun _ _ => rfl, fun _ h => by cases h⟩
  | error error =>
    refine ⟨fun _ h => (by cases h), fun thrown h => ⟨rfl, error, ?_, _, _, _, _, hanswer⟩⟩
    exact (Except.error.inj h).symm

/-- An effect is replayed, or run and kept. -/
theorem wp_runEffect {key : String} {operation : EStateM (ExecutorThrown ε) (ExecutorState σ) Json}
    {Q : Json → ExecutorState σ → Prop} {E : ExecutorThrown ε → ExecutorState σ → Prop} :
    Wp (x.runEffect key operation) s Q E ↔
      (∀ output, x.effectStore.completed s.store key = some output → Q output s) ∧
      (x.effectStore.completed s.store key = none → Wp operation s (fun output s' =>
        Q output { s' with store := x.effectStore.complete s'.store key output }) E) := by
  simp only [runEffect, wp_bind, wp_get]
  cases x.effectStore.completed s.store key with
  | some output => simp only [wp_pure, Option.some.injEq, forall_eq', reduceCtorEq, false_implies,
      and_true]
  | none => simp only [wp_bind, wp_modify, wp_pure, reduceCtorEq, false_implies, implies_true,
      true_and, true_implies]

theorem dispatch_spec (hprimitive : unit.primitive = some primitive) :
    Wp (x.dispatch priorOutputs unit primitive) s (fun _ s' => Dispatched x s unit s')
      (fun thrown s' => Dispatched x s unit s' ∧
        ∃ error, thrown = .primitive error ∧ x.Throws error) := by
  have hdurable : x.selfDurable unit = decide (primitive ∈ x.selfDurablePrimitives) := by
    rw [selfDurable, hprimitive, Option.any_some]
  simp only [dispatch, wp_bind, wp_modify, wp_ite]
  refine ⟨fun hmem => ?_, fun hmem => ?_⟩
  · have htrue : x.selfDurable unit = true := hdurable.trans (decide_eq_true hmem)
    have hnot (P : Prop) (h : x.selfDurable unit = false) : P := by
      cases htrue.symm.trans h
    rw [wp_runEffect]
    refine ⟨fun output _ => operation_spec.mono ?_ ?_, fun _ => ?_⟩
    · rintro _ _ rfl
      exact .ran _ true (.inl htrue) (.inl rfl) (hnot _)
    · rintro _ _ ⟨rfl, herror⟩
      exact ⟨.ran _ false (.inl htrue) (.inl rfl) (hnot _), herror⟩
    · rw [wp_pure]
      refine operation_spec.mono ?_ ?_
      · rintro _ _ rfl
        exact .ran _ true (.inl htrue) (.inr ⟨_, rfl⟩) (hnot _)
      · rintro _ _ ⟨rfl, herror⟩
        exact ⟨.ran _ false (.inl htrue) (.inr ⟨_, rfl⟩) (hnot _), herror⟩
  · have hfalse : x.selfDurable unit = false := hdurable.trans (decide_eq_false hmem)
    rw [wp_runEffect]
    refine ⟨fun output hkept => .replayed hfalse (by rw [keeps, hkept]; rfl), fun hnone => ?_⟩
    have hruns : x.keeps s.store unit.unitId = false := by rw [keeps, hnone]; rfl
    refine operation_spec.mono ?_ ?_
    · rintro output _ rfl
      exact .ran _ true (.inr hruns) (.inr ⟨output, rfl⟩) fun _ _ => ⟨output, rfl⟩
    · rintro _ _ ⟨rfl, herror⟩
      exact ⟨.ran _ false (.inr hruns) (.inl rfl) fun _ h => (by cases h), herror⟩

/-! ## What a schedule does -/

/-- Units reached one after another. -/
inductive Reached (x : Execution σ ε) :
    ExecutorState σ → List ExecutionUnit → ExecutorState σ → Prop
  | nil (s : ExecutorState σ) : Reached x s [] s
  | cons {s s₁ s' : ExecutorState σ} {unit : ExecutionUnit} {units : List ExecutionUnit}
      (hdispatched : Dispatched x s unit s₁) (hrest : Reached x s₁ units s') :
      Reached x s (unit :: units) s'

/-- The ids name units with a primitive. -/
def Schedules (plan : CompiledExecutionPlan) (ids : List String) (units : List ExecutionUnit) :
    Prop :=
  List.Forall₂ (fun unitId unit => ∃ primitive, plan.bound unitId = .ok (unit, primitive)) ids units

variable {unitId : String}

/-- A bound unit is the unit of its id. -/
theorem bound_eq_ok : plan.bound unitId = .ok (unit, primitive) ↔
      plan.unitById? unitId = some unit ∧ unit.primitive = some primitive := by
  rw [CompiledExecutionPlan.bound]
  cases plan.unitById? unitId with
  | none => exact iff_of_false (fun h => nomatch h) fun h => nomatch h.1
  | some found =>
    dsimp only
    cases hprimitive : found.primitive with
    | none =>
      refine iff_of_false (fun h => nomatch h) ?_
      rintro ⟨h, h'⟩
      rw [← Option.some.inj h, hprimitive] at h'
      exact nomatch h'
    | some bound =>
      simp only [pure_eq_ok, Prod.mk.injEq, Option.some.injEq]
      refine and_congr_right ?_
      rintro rfl
      rw [hprimitive, Option.some.injEq]

/-- **What a schedule does.** -/
theorem executeScheduled_spec {ids : List String} : Wp (x.executeScheduled plan ids priorOutputs) s
      (fun results s' => ∃ units, Schedules plan ids units ∧ Reached x s units s' ∧
        results.map (some ·.primitive) = units.map (·.primitive))
      (fun thrown s' => ∃ before after units, ids = before ++ after ∧
        Schedules plan before units ∧ Reached x s units s' ∧
        match thrown with
        | .invalid message => ∃ unitId ∈ after.head?, plan.bound unitId = .error message
        | .primitive error => before ≠ [] ∧ x.Throws error) := by
  induction ids generalizing s priorOutputs with
  | nil =>
    rw [executeScheduled, wp_pure]
    exact ⟨[], .nil, .nil s, rfl⟩
  | cons unitId ids ih =>
    simp only [executeScheduled, executeUnit, wp_bind, wp_check, wp_pure]
    refine ⟨?_, fun thrown hthrown => ?_⟩
    · rintro ⟨unit, primitive⟩ hbound
      have hok : plan.bound unitId = .ok (unit, primitive) := by
        cases h : plan.bound unitId with
        | ok found => rw [h] at hbound; exact congrArg _ (Except.ok.inj hbound)
        | error message => rw [h] at hbound; cases hbound
      refine (dispatch_spec (bound_eq_ok.mp hok).2).mono (fun output s₁ hdispatched => ?_) ?_
      · refine ih.mono ?_ ?_
        · rintro results s' ⟨units, hunits, hreached, hresults⟩
          refine ⟨unit :: units, .cons ⟨primitive, hok⟩ hunits, .cons hdispatched hreached, ?_⟩
          rw [List.map_cons, List.map_cons, hresults, (bound_eq_ok.mp hok).2]
        · rintro thrown s' ⟨before, after, units, rfl, hunits, hreached, hthrown⟩
          refine ⟨unitId :: before, after, unit :: units, rfl, .cons ⟨primitive, hok⟩ hunits,
            .cons hdispatched hreached, ?_⟩
          cases thrown with
          | invalid message => exact hthrown
          | primitive error => exact ⟨List.cons_ne_nil _ _, hthrown.2⟩
      · rintro _ s₁ ⟨hdispatched, error, rfl, hthrows⟩
        exact ⟨[unitId], ids, [unit], rfl, .cons ⟨primitive, hok⟩ .nil,
          .cons hdispatched (.nil s₁), List.cons_ne_nil _ _, hthrows⟩
    · cases h : plan.bound unitId with
      | ok found => rw [h] at hthrown; cases hthrown
      | error message =>
        rw [h] at hthrown
        rw [← Except.error.inj hthrown]
        exact ⟨[], unitId :: ids, [], rfl, .nil, .nil s, unitId, rfl, h⟩

/-! ### Units that are reached -/

theorem effectKey_injective {unitId' : String} (h : x.effectKey unitId = x.effectKey unitId') :
    unitId = unitId' :=
  (String.append_right_inj _).mp h

/-- What is kept for the other units stays. -/
theorem Dispatched.keeps_other (h : Dispatched x s unit s') (hne : unitId ≠ unit.unitId) :
    x.keeps s'.store unitId = x.keeps s.store unitId := by
  have hkey : x.effectKey unitId ≠ x.effectKey unit.unitId := fun heq => hne (effectKey_injective heq)
  cases h with
  | replayed => rfl
  | ran store completed hruns hstore =>
    rcases hstore with rfl | ⟨output, rfl⟩
    · rfl
    · rw [keeps, x.effectStore.completed_other hkey, keeps]

theorem Reached.reached (h : Reached x s units s') : s'.reached = s.reached ++ units := by
  induction h with
  | nil => exact (List.append_nil _).symm
  | cons hdispatched _ ih =>
    rw [ih]
    cases hdispatched <;> exact List.append_assoc _ _ _

/-- Whether the handler of a unit runs when the unit is reached. -/
def runsIn (x : Execution σ ε) (s : ExecutorState σ) (unit : ExecutionUnit) : Bool :=
  x.selfDurable unit || !x.keeps s.store unit.unitId

/-- **The handlers that run** are those of the self-durable units and of the units nothing is kept
for, each once. -/
theorem Reached.ran (h : Reached x s units s') (hnodup : (units.map (·.unitId)).Nodup) :
    ∃ runs, s'.ran = s.ran ++ runs ∧ runs.map (·.unit) = units.filter (x.runsIn s) := by
  induction h with
  | nil => exact ⟨[], (List.append_nil _).symm, rfl⟩
  | @cons s s₁ s' unit units hdispatched _ ih =>
    rw [List.map_cons, List.nodup_cons] at hnodup
    obtain ⟨runs, hruns, hmap⟩ := ih hnodup.2
    have hsame : units.filter (x.runsIn s₁) = units.filter (x.runsIn s) := by
      refine List.filter_congr fun other hother => ?_
      have hne : other.unitId ≠ unit.unitId := fun heq =>
        hnodup.1 (heq ▸ List.mem_map_of_mem hother)
      rw [runsIn, hdispatched.keeps_other hne, runsIn]
    rw [hsame] at hmap
    cases hdispatched with
    | replayed hdurable hkept =>
      refine ⟨runs, hruns, ?_⟩
      rw [List.filter_cons_of_neg, hmap]
      simp [runsIn, hdurable, hkept]
    | ran store completed hrun =>
      refine ⟨⟨unit, completed⟩ :: runs, ?_, ?_⟩
      · rw [hruns, List.append_assoc, List.singleton_append]
      · rw [List.filter_cons_of_pos, List.map_cons, hmap]
        rcases hrun with hdurable | hkept
        · simp [runsIn, hdurable]
        · simp [runsIn, hkept]

end Execution

end MeiyeAgent
