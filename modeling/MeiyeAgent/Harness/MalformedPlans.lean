import MeiyeAgent.Harness.CarrierExecutor
import MeiyeAgent.Machinery.Table

/-!
# Harness/MalformedPlans — what a plan that does not fit is let do

The structure of a plan is checked on its units; the executor follows its dependency groups.  A
plan that declares its capabilities lists its units in the order of its groups, a legacy plan need
not.

* `executesWhole_of_capabilities` — **a plan that declares its capabilities** is refused before its
  first unit, or runs its units in the order of the carrier's steps.
* `executesWhole_iff` — **exactly which plans** do.
-/

open Effect

namespace MeiyeAgent

/-! ## What the checks say -/

theorem CompiledPrimitiveId.colon_notMem_text (primitive : CompiledPrimitiveId) :
    ':' ∉ primitive.text.toList := by
  cases primitive <;> decide

/-- **The step of a unit tells its primitive.** -/
theorem primitive_of_key {unit : ExecutionUnit} {step : CarrierStepDeclaration} {role : String}
    (h : unit.primitiveText ++ ":" ++ role = step.key) : unit.primitive = some step.primitive := by
  have hchars : unit.primitiveText.toList ++ ':' :: role.toList =
      step.primitive.text.toList ++ ':' :: step.role.toList := by
    simpa [CarrierStepDeclaration.key] using congrArg String.toList h
  have hcolon : ':' ∉ unit.primitiveText.toList := by
    rw [ExecutionUnit.primitiveText]
    split
    · exact CompiledPrimitiveId.colon_notMem_text _
    · decide
  have hbefore : ∀ {before after : List Char}, ':' ∉ before →
      (before ++ ':' :: after).takeWhile (· ≠ ':') = before := by
    intro before after hnot
    rw [List.takeWhile_append_of_pos, List.takeWhile_cons_of_neg (by simp), List.append_nil]
    exact fun c hc => decide_eq_true fun heq => hnot (heq ▸ hc)
  have htext : unit.primitiveText.toList = step.primitive.text.toList := by
    rw [← hbefore hcolon, hchars, hbefore step.primitive.colon_notMem_text]
  rw [ExecutionUnit.primitiveText] at htext
  cases hprimitive : unit.primitive with
  | none =>
    rw [hprimitive] at htext
    cases hstep : step.primitive <;> rw [hstep] at htext <;> exact absurd htext (by decide)
  | some primitive =>
    rw [hprimitive] at htext
    cases primitive <;> cases hstep : step.primitive <;> rw [hstep] at htext <;>
      first | rfl | exact absurd htext (by decide)

namespace CarrierUnitRecipe

variable {recipe : CarrierUnitRecipe} {unit : ExecutionUnit} {units : List ExecutionUnit}

theorem stepIndex_eq_ok {index : Nat} (h : recipe.stepIndex unit = .ok index) :
    ∃ step, recipe.stepCatalog[index]? = some step ∧ unit.primitive = some step.primitive := by
  simp only [stepIndex, compiledStepKey, bind_eq_ok, pure_eq_ok] at h
  obtain ⟨_, ⟨role, -, rfl⟩, h⟩ := h
  cases hindex : recipe.catalogKeys.idxOf? (unit.primitiveText ++ ":" ++ role) with
  | none => rw [hindex] at h; cases h
  | some found =>
    rw [hindex] at h
    obtain rfl := pure_eq_ok.mp h
    obtain ⟨hlt, hkey, -⟩ := List.findIdx?_eq_some_iff_getElem.mp hindex
    rw [catalogKeys, List.length_map] at hlt
    simp only [catalogKeys, List.getElem_map, beq_iff_eq] at hkey
    exact ⟨recipe.stepCatalog[found], List.getElem?_eq_getElem hlt, primitive_of_key hkey.symm⟩

/-- A step does not come before the step it follows. -/
def precedes (recipe : CarrierUnitRecipe) (unit other : ExecutionUnit) : Bool :=
  (recipe.stepIndex unit).toOption.any fun index =>
    (recipe.stepIndex other).toOption.any fun index' => index ≤ index'

theorem precedes_eq_true {other : ExecutionUnit} {index index' : Nat}
    (h : recipe.stepIndex unit = .ok index) (h' : recipe.stepIndex other = .ok index') :
    recipe.precedes unit other = true ↔ index ≤ index' := by
  simp [precedes, h, h', Except.toOption]

theorem checkUnit_eq_ok {cursor index : Nat} {seen : List String} {key : String}
    (h : recipe.checkUnit cursor seen unit = .ok (index, key)) :
    unit.unitType ∈ recipe.plan.units.map (·.unitType) ∧ compiledStepKey unit = .ok key ∧
      recipe.stepIndex unit = .ok index ∧ cursor ≤ index ∧
      (key ∈ seen → recipe.repeatableAt index = true) := by
  simp only [checkUnit, guard_eq_ok, bind_eq_ok, pure_eq_ok, Prod.mk.injEq, not_not, not_lt,
    not_and, Bool.not_eq_false] at h
  obtain ⟨htype, _, hkey, _, hindex, hcursor, hrepeat, rfl, rfl⟩ := h
  exact ⟨htype, hkey, hindex, hcursor, hrepeat⟩

/-- **Checked units** stand in the order of the steps, from the cursor on. -/
theorem checkUnits_eq_ok {cursor : Nat} {seen keys : List String}
    (h : recipe.checkUnits cursor seen units = .ok keys) :
    (∀ unit ∈ units, ∃ index, recipe.stepIndex unit = .ok index ∧ cursor ≤ index) ∧
      units.Pairwise (recipe.precedes · · = true) := by
  induction units generalizing cursor seen with
  | nil => exact ⟨fun _ hmem => absurd hmem List.not_mem_nil, .nil⟩
  | cons unit units ih =>
    simp only [checkUnits, bind_eq_ok] at h
    obtain ⟨⟨index, key⟩, hunit, hrest⟩ := h
    obtain ⟨-, -, hindex, hcursor, -⟩ := checkUnit_eq_ok hunit
    obtain ⟨hunits, hpairs⟩ := ih hrest
    refine ⟨fun other hother => ?_, List.pairwise_cons.mpr ⟨fun other hother => ?_, hpairs⟩⟩
    · rcases List.mem_cons.mp hother with rfl | hother
      · exact ⟨index, hindex, hcursor⟩
      · obtain ⟨index', hindex', hle⟩ := hunits other hother
        exact ⟨index', hindex', hcursor.trans hle⟩
    · obtain ⟨index', hindex', hle⟩ := hunits other hother
      exact (precedes_eq_true hindex hindex').mpr hle

end CarrierUnitRecipe

/-- A canonical catalogue has its record step at its end, and no other. -/
theorem resolveRecipe_record (carrier : PlanDeliverableCarrier) {index : Nat}
    {step : CarrierStepDeclaration}
    (h : (resolveRecipe carrier).stepCatalog[index]? = some step) :
    step.primitive = .record ↔ index + 1 = (resolveRecipe carrier).stepCatalog.length := by
  have hall : ∀ carrier : PlanDeliverableCarrier,
      ∀ index < (resolveRecipe carrier).stepCatalog.length,
        ∀ step ∈ (resolveRecipe carrier).stepCatalog[index]?, step.primitive = .record ↔
          index + 1 = (resolveRecipe carrier).stepCatalog.length := by
    intro carrier
    cases carrier <;> decide
  exact hall carrier index (List.getElem?_eq_some_iff.mp h).1 step h

/-- What a plan that passes the checks has. -/
structure Executable (resolution : CompiledCarrierResolution) : Prop where
  record : resolution.executionPlan.units.getLast?.bind (·.primitive) = some .record
  steps : ∀ unit ∈ resolution.executionPlan.units,
    ∃ index, resolution.recipe.stepIndex unit = .ok index
  order : resolution.executionPlan.units.Pairwise (resolution.recipe.precedes · · = true)
  count : resolution.executionPlan.scheduled.length = resolution.executionPlan.units.length
  once : resolution.executionPlan.scheduled.Nodup

theorem executable_of_ok {resolution : CompiledCarrierResolution}
    (h : assertExecutable resolution = .ok ()) : Executable resolution := by
  simp only [assertExecutable, bind_eq_ok] at h
  obtain ⟨_, -, _, -, _, hcompatible, hscheduled⟩ := h
  simp only [assertCompiledCarrierPlanCompatible, guard_eq_ok, bind_eq_ok, not_not] at hcompatible
  obtain ⟨hrecord, keys, hkeys, -⟩ := hcompatible
  rw [assertScheduledOnce, last_guard_eq_ok, not_or, not_not, not_not] at hscheduled
  obtain ⟨hsteps, horder⟩ := CarrierUnitRecipe.checkUnits_eq_ok hkeys
  exact ⟨hrecord, fun unit hunit => (hsteps unit hunit).imp fun _ h => h.1, horder,
    hscheduled.1, hscheduled.2⟩

/-! ## What the schedule says -/

open Execution (Schedules Reached bound_eq_ok)

variable {plan : CompiledExecutionPlan} {resolution : CompiledCarrierResolution}
  {ids : List String} {unit : ExecutionUnit} {units : List ExecutionUnit}

theorem schedules_iff : Schedules plan ids units ↔
    ∃ bound, ids.mapM plan.bound = .ok bound ∧ bound.map (·.1) = units := by
  constructor
  · intro h
    induction h with
    | nil => exact ⟨[], rfl, rfl⟩
    | cons hbound _ ih =>
      obtain ⟨primitive, hbound⟩ := hbound
      obtain ⟨bound, hrest, rfl⟩ := ih
      exact ⟨(_, primitive) :: bound, list_mapM_eq_ok.mpr (.cons hbound (list_mapM_eq_ok.mp hrest)),
        rfl⟩
  · rintro ⟨bound, hbound, rfl⟩
    refine List.forall₂_map_right_iff.mpr ((list_mapM_eq_ok.mp hbound).imp ?_)
    exact fun _ b h => ⟨b.2, h⟩

theorem unitId_of_bound {unitId : String} {primitive : CompiledPrimitiveId}
    (h : plan.bound unitId = .ok (unit, primitive)) : unit ∈ plan.units ∧ unit.unitId = unitId := by
  have hfind : plan.units.reverse.find? (·.unitId = unitId) = some unit := (bound_eq_ok.mp h).1
  have hid := List.find?_some hfind
  exact ⟨List.mem_reverse.mp (List.mem_of_find?_eq_some hfind), of_decide_eq_true hid⟩

theorem Execution.Schedules.map_unitId (h : Schedules plan ids units) : units.map (·.unitId) = ids := by
  induction h with
  | nil => rfl
  | cons hbound _ ih =>
    obtain ⟨primitive, hbound⟩ := hbound
    rw [List.map_cons, ih, (unitId_of_bound hbound).2]

theorem Execution.Schedules.subset (h : Schedules plan ids units) : units ⊆ plan.units := by
  induction h with
  | nil => exact List.nil_subset _
  | cons hbound _ ih =>
    obtain ⟨primitive, hbound⟩ := hbound
    exact List.cons_subset.mpr ⟨(unitId_of_bound hbound).1, ih⟩

/-- The units of a schedule start with those of its start. -/
theorem Execution.Schedules.isPrefix {before after : List String} {order : List ExecutionUnit}
    (h : Schedules plan before units) (h' : Schedules plan (before ++ after) order) :
    units <+: order := by
  induction h generalizing order with
  | nil => exact List.nil_prefix
  | cons hbound _ ih =>
    cases h' with
    | cons hbound' hrest =>
      obtain ⟨primitive, hbound⟩ := hbound
      obtain ⟨primitive', hbound'⟩ := hbound'
      obtain ⟨rfl, -⟩ := Prod.mk.inj (Except.ok.inj (hbound.symm.trans hbound'))
      exact List.cons_prefix_cons.mpr ⟨rfl, ih hrest⟩

theorem Execution.Schedules.bound_of_mem (h : Schedules plan ids units) {unitId : String}
    (hmem : unitId ∈ ids) : ∃ bound, plan.bound unitId = .ok bound := by
  obtain ⟨bound, hbound, -⟩ := schedules_iff.mp h
  exact ok_of_mapM_eq_ok hbound unitId hmem

/-- **A schedule whose ids all name units** has each unit once. -/
theorem Executable.perm (h : Executable resolution)
    (hunits : Schedules resolution.executionPlan resolution.executionPlan.scheduled units) :
    units.Perm resolution.executionPlan.units := by
  have hnodup : units.Nodup := .of_map (·.unitId) (hunits.map_unitId ▸ h.once)
  refine (List.subperm_of_subset hnodup hunits.subset).perm_of_length_le ?_
  rw [← h.count, ← hunits.map_unitId, List.length_map]

/-- The schedule names no unit first. -/
def CompiledExecutionPlan.startsUnknown (plan : CompiledExecutionPlan) : Bool :=
  plan.scheduled.head?.any fun unitId => !(plan.bound unitId).isOk

/-- **The schedule names units whose steps stand in the order of the catalogue.** -/
def CompiledCarrierResolution.followsSteps (resolution : CompiledCarrierResolution) : Bool :=
  match resolution.executionPlan.scheduled.mapM resolution.executionPlan.bound with
  | .ok bound => decide ((bound.map (·.1)).Pairwise (resolution.recipe.precedes · · = true))
  | .error _ => false

theorem followsSteps_eq_true : resolution.followsSteps = true ↔
    ∃ units, Schedules resolution.executionPlan resolution.executionPlan.scheduled units ∧
      units.Pairwise (resolution.recipe.precedes · · = true) := by
  simp only [schedules_iff, CompiledCarrierResolution.followsSteps]
  cases resolution.executionPlan.scheduled.mapM resolution.executionPlan.bound with
  | ok bound => simp
  | error message => simp

/-! ## Whole runs -/

/-- **A whole run**: each unit once, in the order of the carrier's steps, the record unit last. -/
structure CompiledCarrierResolution.RunsWhole (resolution : CompiledCarrierResolution)
    (order : List ExecutionUnit) : Prop where
  once : order.Perm resolution.executionPlan.units
  steps : order.Pairwise (resolution.recipe.precedes · · = true)
  record : order.getLast?.bind (·.primitive) = some .record

section

variable {σ ε : Type} {x : Execution σ ε} {context : CompiledCarrierExecutorContext}
  {s s' : ExecutorState σ}

/-- The units are reached in turn, and the handlers run that have not run. -/
def Execution.RunsUnits (x : Execution σ ε) (s : ExecutorState σ) (units : List ExecutionUnit)
    (s' : ExecutorState σ) : Prop :=
  s'.reached = s.reached ++ units ∧
    ∃ runs, s'.ran = s.ran ++ runs ∧ runs.map (·.unit) = units.filter (x.runsIn s)

/-- **A plan is refused and does nothing, or runs whole**, up to where a handler throws. -/
def Execution.ExecutesWhole (x : Execution σ ε) (context : CompiledCarrierExecutorContext)
    (s : ExecutorState σ) : Prop :=
  let resolution := resolveCompiledCarrierExecution context
  Wp (executeCompiledCarrierPlan x context) s
    (fun _ s' => ∃ order, resolution.RunsWhole order ∧ x.RunsUnits s order s')
    (fun thrown s' => match thrown with
      | .invalid _ => s' = s
      | .primitive _ => ∃ order done, resolution.RunsWhole order ∧ done <+: order ∧
          x.RunsUnits s done s')

theorem Execution.Reached.runsUnits (h : Reached x s units s')
    (hnodup : (units.map (·.unitId)).Nodup) : x.RunsUnits s units s' :=
  ⟨h.reached, h.ran hnodup⟩

/-- **Units in the order of the steps end with the record unit**, whose step is the last. -/
theorem Executable.runsWhole (h : Executable (resolveCompiledCarrierExecution context))
    (hperm : units.Perm (resolveCompiledCarrierExecution context).executionPlan.units)
    (horder : units.Pairwise ((resolveCompiledCarrierExecution context).recipe.precedes · · = true)) :
    (resolveCompiledCarrierExecution context).RunsWhole units := by
  refine ⟨hperm, horder, ?_⟩
  obtain ⟨record, hlast, hrecord⟩ := Option.bind_eq_some_iff.mp h.record
  have hmem : record ∈ units := hperm.mem_iff.mpr (List.mem_of_getLast? hlast)
  obtain ⟨last, hlast'⟩ : ∃ last, units.getLast? = some last :=
    ⟨_, List.getLast?_eq_some_getLast (List.ne_nil_of_mem hmem)⟩
  rw [hlast', Option.bind_some]
  obtain ⟨before, hunits⟩ := List.getLast?_eq_some_iff.mp hlast'
  rw [hunits] at hmem horder
  rcases List.mem_append.mp hmem with hbefore | heq
  · obtain ⟨index, hindex⟩ := h.steps record (hperm.mem_iff.mp (hunits ▸ hmem))
    obtain ⟨index', hindex'⟩ := h.steps last (hperm.mem_iff.mp (List.mem_of_getLast? hlast'))
    obtain ⟨step, hstep, hprimitive⟩ := CarrierUnitRecipe.stepIndex_eq_ok hindex
    obtain ⟨step', hstep', hprimitive'⟩ := CarrierUnitRecipe.stepIndex_eq_ok hindex'
    have hle : index ≤ index' := (CarrierUnitRecipe.precedes_eq_true hindex hindex').mp
      ((List.pairwise_append.mp horder).2.2 record hbefore last List.mem_cons_self)
    have hend := (resolveRecipe_record _ hstep).mp (Option.some.inj (hprimitive.symm.trans hrecord))
    have hlt := (List.getElem?_eq_some_iff.mp hstep').1
    have hend' := (resolveRecipe_record _ hstep').mpr (by
      change index' < (resolveRecipe (lensToContentCarrier context.lens)).stepCatalog.length at hlt
      omega)
    rw [hprimitive', hend']
  · rw [← List.mem_singleton.mp heq, hrecord]

/-- **How an execution ends.** -/
inductive Execution.Executed (x : Execution σ ε) (context : CompiledCarrierExecutorContext)
    (resolution : CompiledCarrierResolution) (s : ExecutorState σ) :
    Except (ExecutorThrown ε) Json → ExecutorState σ → Prop
  | refused (message : String) (hrefused : assertExecutable resolution = .error message) :
      Executed x context resolution s (.error (.invalid message)) s
  | returned (output : Json) (units : List ExecutionUnit) (s' : ExecutorState σ)
      (hok : assertExecutable resolution = .ok ())
      (hunits : Schedules resolution.executionPlan resolution.executionPlan.scheduled units)
      (hreached : Reached x s units s')
      (hrecord : units.getLast?.bind (·.primitive) = some .record) :
      Executed x context resolution s (.ok output) s'
  | unrecorded (message : String) (units : List ExecutionUnit) (s' : ExecutorState σ)
      (hok : assertExecutable resolution = .ok ())
      (hunits : Schedules resolution.executionPlan resolution.executionPlan.scheduled units)
      (hreached : Reached x s units s')
      (hrecord : units.getLast?.bind (·.primitive) ≠ some .record) :
      Executed x context resolution s (.error (.invalid message)) s'
  | unknown (message unitId : String) (before after : List String) (units : List ExecutionUnit)
      (s' : ExecutorState σ) (hok : assertExecutable resolution = .ok ())
      (hids : resolution.executionPlan.scheduled = before ++ unitId :: after)
      (hunits : Schedules resolution.executionPlan before units) (hreached : Reached x s units s')
      (hbound : resolution.executionPlan.bound unitId = .error message) :
      Executed x context resolution s (.error (.invalid message)) s'
  | threw (error : ε) (before after : List String) (units : List ExecutionUnit)
      (s' : ExecutorState σ) (hok : assertExecutable resolution = .ok ())
      (hids : resolution.executionPlan.scheduled = before ++ after) (hne : before ≠ [])
      (hunits : Schedules resolution.executionPlan before units) (hreached : Reached x s units s')
      (hthrows : x.Throws error) : Executed x context resolution s (.error (.primitive error)) s'

/-- The record output is that of the last unit. -/
theorem recordOutput_isOk {results : List PrimitiveResult}
    (h : results.map (some ·.primitive) = units.map (·.primitive)) :
    (∃ output, recordOutput results = .ok output) ↔
      units.getLast?.bind (·.primitive) = some .record := by
  have hlast := congrArg List.getLast? h
  rw [List.getLast?_map, List.getLast?_map] at hlast
  rw [recordOutput]
  cases hresult : results.getLast? with
  | none =>
    rw [hresult, Option.map_none, eq_comm, Option.map_eq_none_iff] at hlast
    rw [hlast]
    exact iff_of_false (fun ⟨_, h⟩ => nomatch h) fun h => nomatch h
  | some result =>
    rw [hresult, Option.map_some, eq_comm, Option.map_eq_some_iff] at hlast
    obtain ⟨last, hlast, hprimitive⟩ := hlast
    rw [hlast, Option.bind_some, hprimitive, Option.some.injEq]
    by_cases hrecord : result.primitive = .record
    · simp [Option.filter, hrecord]
    · simp [Option.filter, hrecord]

theorem executeCompiledCarrierPlan_spec (x : Execution σ ε)
    (context : CompiledCarrierExecutorContext) (s : ExecutorState σ) :
    Wp (executeCompiledCarrierPlan x context) s
      (fun output s' =>
        x.Executed context (resolveCompiledCarrierExecution context) s (.ok output) s')
      (fun thrown s' =>
        x.Executed context (resolveCompiledCarrierExecution context) s (.error thrown) s') := by
  simp only [executeCompiledCarrierPlan, wp_bind, wp_check]
  cases hchecks : assertExecutable (resolveCompiledCarrierExecution context) with
  | error message =>
    refine ⟨fun _ h => (by cases h), fun thrown h => ?_⟩
    rw [← Except.error.inj h]
    exact .refused message hchecks
  | ok passed =>
    refine ⟨fun _ _ => Execution.executeScheduled_spec.mono ?_ ?_, fun _ h => by cases h⟩
    · rintro results s' ⟨units, hunits, hreached, hresults⟩
      have hrecord := recordOutput_isOk hresults
      cases houtput : recordOutput results with
      | ok output =>
        refine ⟨fun _ _ => ?_, fun _ h => by cases h⟩
        exact .returned _ units s' hchecks hunits hreached (hrecord.mp ⟨output, houtput⟩)
      | error message =>
        refine ⟨fun _ h => (by cases h), fun thrown h => ?_⟩
        rw [← Except.error.inj h]
        refine .unrecorded message units s' hchecks hunits hreached fun hlast => ?_
        obtain ⟨output, hok⟩ := hrecord.mpr hlast
        cases houtput.symm.trans hok
    · rintro thrown s' ⟨before, after, units, hids, hunits, hreached, hthrown⟩
      cases thrown with
      | invalid message =>
        obtain ⟨unitId, hhead, hbound⟩ := hthrown
        obtain ⟨rest, rfl⟩ := List.head?_eq_some_iff.mp hhead
        exact .unknown message unitId before rest units s' hchecks hids hunits hreached hbound
      | primitive error =>
        exact .threw error before after units s' hchecks hids hthrown.1 hunits hreached hthrown.2

/-- The units a schedule starts with have ids of their own. -/
theorem Executable.nodup_of_scheduled (h : Executable resolution) {before after : List String}
    (hids : resolution.executionPlan.scheduled = before ++ after)
    (hunits : Schedules resolution.executionPlan before units) :
    (units.map (·.unitId)).Nodup := by
  have honce := h.once
  rw [hids] at honce
  rw [hunits.map_unitId]
  exact (List.nodup_append.mp honce).1

/-- **A plan whose schedule follows the steps** is run whole, or refused. -/
theorem executesWhole_of_followsSteps (x : Execution σ ε) (context : CompiledCarrierExecutorContext)
    (s : ExecutorState σ)
    (hfollows : (resolveCompiledCarrierExecution context).followsSteps = true) :
    x.ExecutesWhole context s := by
  obtain ⟨order, horder, hsteps⟩ := followsSteps_eq_true.mp hfollows
  have hwhole (hok : assertExecutable (resolveCompiledCarrierExecution context) = .ok ()) :=
    (executable_of_ok hok).runsWhole ((executable_of_ok hok).perm horder) hsteps
  refine (executeCompiledCarrierPlan_spec x context s).mono (fun output s' hexecuted => ?_)
    fun thrown s' hexecuted => ?_
  · cases hexecuted with
    | returned _ units _ hok hunits hreached =>
      have hnodup := (executable_of_ok hok).nodup_of_scheduled (List.append_nil _).symm hunits
      refine ⟨units, ?_, hreached.runsUnits hnodup⟩
      refine (executable_of_ok hok).runsWhole ((executable_of_ok hok).perm hunits) ?_
      rw [← List.append_nil (CompiledExecutionPlan.scheduled _)] at horder
      exact hsteps.sublist (hunits.isPrefix horder).sublist
  · cases hexecuted with
    | refused => rfl
    | unrecorded message units _ hok hunits hreached hrecord =>
      rw [← List.append_nil (CompiledExecutionPlan.scheduled _)] at horder
      have hwhole' := (executable_of_ok hok).runsWhole ((executable_of_ok hok).perm hunits)
        (hsteps.sublist (hunits.isPrefix horder).sublist)
      exact absurd hwhole'.record hrecord
    | unknown message unitId before after units _ hok hids hunits hreached hbound =>
      have hmem : unitId ∈ (resolveCompiledCarrierExecution context).executionPlan.scheduled :=
        hids ▸ List.mem_append_right before List.mem_cons_self
      obtain ⟨bound, hok⟩ := horder.bound_of_mem hmem
      exact nomatch hok.symm.trans hbound
    | threw error before after units _ hok hids hne hunits hreached =>
      have hnodup := (executable_of_ok hok).nodup_of_scheduled hids hunits
      exact ⟨order, units, hwhole hok, hunits.isPrefix (hids ▸ horder), hreached.runsUnits hnodup⟩

/-- **A plan whose schedule starts with no unit** is refused. -/
theorem executesWhole_of_startsUnknown (x : Execution σ ε)
    (context : CompiledCarrierExecutorContext) (s : ExecutorState σ)
    (hstarts : (resolveCompiledCarrierExecution context).executionPlan.startsUnknown = true) :
    x.ExecutesWhole context s := by
  obtain ⟨first, hfirst, hunbound⟩ := (Option.any_eq_true _ _).mp hstarts
  obtain ⟨rest, hids⟩ := List.head?_eq_some_iff.mp hfirst
  -- no unit is reached before the first
  have hnone {before after : List String} {units : List ExecutionUnit}
      (hsplit : (resolveCompiledCarrierExecution context).executionPlan.scheduled = before ++ after)
      (hunits : Schedules (resolveCompiledCarrierExecution context).executionPlan before units) :
      before = [] := by
    cases before with
    | nil => rfl
    | cons unitId before =>
      rw [hids, List.cons_append, List.cons.injEq] at hsplit
      obtain ⟨bound, hbound⟩ := hunits.bound_of_mem List.mem_cons_self
      rw [hsplit.1, hbound] at hunbound
      exact nomatch hunbound
  have hall {units : List ExecutionUnit} (hunits : Schedules
      (resolveCompiledCarrierExecution context).executionPlan
      (resolveCompiledCarrierExecution context).executionPlan.scheduled units) : False := by
    have hempty := hnone (List.append_nil _).symm hunits
    rw [hids] at hempty
    exact List.cons_ne_nil _ _ hempty
  refine (executeCompiledCarrierPlan_spec x context s).mono (fun output s' hexecuted => ?_)
    fun thrown s' hexecuted => ?_
  · cases hexecuted with
    | returned output units _ hok hunits => exact (hall hunits).elim
  · cases hexecuted with
    | refused => rfl
    | unrecorded message units _ hok hunits => exact (hall hunits).elim
    | unknown message unitId before after units _ hok hsplit hunits hreached =>
      obtain rfl := hnone hsplit hunits
      cases hunits
      cases hreached
      rfl
    | threw error before after units _ hok hsplit hne hunits =>
      exact absurd (hnone hsplit hunits) hne

/-- A plan that is refused does nothing. -/
theorem executesWhole_of_refused (x : Execution σ ε) (context : CompiledCarrierExecutorContext)
    (s : ExecutorState σ)
    (hrefused : assertExecutable (resolveCompiledCarrierExecution context) ≠ .ok ()) :
    x.ExecutesWhole context s := by
  refine (executeCompiledCarrierPlan_spec x context s).mono (fun output s' hexecuted => ?_)
    fun thrown s' hexecuted => ?_
  · cases hexecuted with
    | returned _ _ _ hpassed => exact absurd hpassed hrefused
  · cases hexecuted with
    | refused => rfl
    | unrecorded _ _ _ hpassed => exact absurd hpassed hrefused
    | unknown _ _ _ _ _ _ hpassed => exact absurd hpassed hrefused
    | threw _ _ _ _ _ hpassed => exact absurd hpassed hrefused

/-! ## Plans that declare their capabilities -/

/-- A plan without a violation lists its units in the order of its groups. -/
theorem scheduled_of_capabilities
    (h : currentExecutionPlanCapabilityViolation plan = none) :
    plan.scheduled = plan.units.map (·.unitId) := by
  rw [currentExecutionPlanCapabilityViolation] at h
  split at h
  · exact nomatch h
  · split_ifs at h with _ _ hscheduled
    exact not_not.mp hscheduled

/-- **Units in the order of their plan** are scheduled one by one. -/
theorem Executable.schedules (h : Executable resolution)
    (hscheduled : resolution.executionPlan.scheduled =
      resolution.executionPlan.units.map (·.unitId)) :
    Schedules resolution.executionPlan resolution.executionPlan.scheduled
      resolution.executionPlan.units := by
  have honce := h.once
  rw [hscheduled] at honce ⊢
  rw [Schedules, List.forall₂_map_left_iff, List.forall₂_same]
  intro unit hunit
  obtain ⟨index, hindex⟩ := h.steps unit hunit
  obtain ⟨step, -, hprimitive⟩ := CarrierUnitRecipe.stepIndex_eq_ok hindex
  refine ⟨step.primitive, bound_eq_ok.mpr ⟨?_, hprimitive⟩⟩
  have hnodup : (resolution.executionPlan.units.reverse.map (·.unitId)).Nodup := by
    rw [List.map_reverse]
    exact List.nodup_reverse.mpr honce
  exact Table.find?_of_nodup hnodup (List.mem_reverse.mpr hunit) fun _ _ => decide_eq_true_iff

/-- **A plan that declares its capabilities** is refused before its first unit, or runs its units in
the order of the carrier's steps. -/
theorem executesWhole_of_capabilities (x : Execution σ ε)
    (context : CompiledCarrierExecutorContext) (s : ExecutorState σ)
    (hdeclares : (resolveCompiledCarrierExecution context).executionPlan.executionCapabilities ≠
      none) : x.ExecutesWhole context s := by
  by_cases hok : assertExecutable (resolveCompiledCarrierExecution context) = .ok ()
  · have hpassed := executable_of_ok hok
    simp only [assertExecutable, bind_eq_ok] at hok
    obtain ⟨_, hcapabilities, -⟩ := hok
    obtain ⟨capabilities, hsome⟩ := Option.ne_none_iff_exists'.mp hdeclares
    rw [assertCapabilities, hsome, Option.bind_some] at hcapabilities
    cases hviolation : currentExecutionPlanCapabilityViolation
        (resolveCompiledCarrierExecution context).executionPlan with
    | some violation => rw [hviolation] at hcapabilities; cases hcapabilities
    | none =>
      have hunits := hpassed.schedules (scheduled_of_capabilities hviolation)
      exact executesWhole_of_followsSteps x context s
        (followsSteps_eq_true.mpr ⟨_, hunits, hpassed.order⟩)
  · exact executesWhole_of_refused x context s hok

theorem executesWhole_copy : (Execution.mk (fun _ _ _ _ => .ok .null : PrimitiveHandlers Unit)
    createMemoryPrimitiveEffectStore "workflow-1" []).ExecutesWhole
      ⟨none, some buildCopyCarrierRecipe.plan⟩ ⟨.empty, [], []⟩ :=
  executesWhole_of_capabilities _ _ _ (by decide)

/-! ## Every plan -/

/-- **Exactly which plans run whole or do nothing**: those refused by the checks, those whose
schedule names no unit first, and those whose schedule follows the steps. -/
theorem executesWhole_iff (effectStore : PrimitiveEffectStore σ) (executionId : String)
    (selfDurablePrimitives : List CompiledPrimitiveId) (context : CompiledCarrierExecutorContext)
    (s : ExecutorState σ) :
    (∀ handlers : PrimitiveHandlers ε,
      (Execution.mk handlers effectStore executionId selfDurablePrimitives).ExecutesWhole
        context s) ↔
      (assertExecutable (resolveCompiledCarrierExecution context) = .ok () →
        (resolveCompiledCarrierExecution context).executionPlan.startsUnknown = true ∨
          (resolveCompiledCarrierExecution context).followsSteps = true) := by
  refine ⟨fun h hok => ?_, fun h handlers => ?_⟩
  · -- handlers that never throw run the plan to its end
    have hwhole := h fun _ _ _ _ => .ok .null
    have hspec := (hwhole : Wp _ s _ _).and (executeCompiledCarrierPlan_spec _ context s)
    refine wp_final (I := fun _ => _).mp (hspec.mono ?_ ?_)
    · rintro output s' ⟨⟨order, hwhole, hreached, -⟩, hexecuted⟩
      cases hexecuted with
      | returned _ units _ _ hunits hrun =>
        have hsame : units = order := List.append_cancel_left (hrun.reached.symm.trans hreached)
        exact .inr (followsSteps_eq_true.mpr ⟨units, hunits, hsame ▸ hwhole.steps⟩)
    · rintro thrown s' ⟨hwhole, hexecuted⟩
      have hunmoved {units : List ExecutionUnit} {s' : ExecutorState σ} {x : Execution σ ε}
          (hrun : Reached x s units s') (hsame : s' = s) : units = [] := by
        have hreached := hrun.reached
        rw [hsame] at hreached
        exact List.append_right_eq_self.mp hreached.symm
      cases hexecuted with
      | refused message hrefused => exact nomatch hok.symm.trans hrefused
      | unrecorded message units _ _ hunits hrun =>
        obtain rfl := hunmoved hrun hwhole
        have hpassed := executable_of_ok hok
        have hempty := hpassed.count
        rw [← hunits.map_unitId] at hempty
        have hrecord := hpassed.record
        rw [List.eq_nil_of_length_eq_zero hempty.symm] at hrecord
        exact nomatch hrecord
      | unknown message unitId before after units _ _ hids hunits hrun hbound =>
        obtain rfl := hunmoved hrun hwhole
        obtain rfl : [] = before := hunits.map_unitId
        refine .inl ?_
        rw [CompiledExecutionPlan.startsUnknown, hids, List.nil_append, List.head?_cons,
          Option.any_some, hbound]
        rfl
      | threw error before after units _ _ _ _ _ _ hthrows =>
        obtain ⟨_, _, _, _, hthrown⟩ := hthrows
        exact nomatch hthrown
  · by_cases hok : assertExecutable (resolveCompiledCarrierExecution context) = .ok ()
    · rcases h hok with hstarts | hfollows
      · exact executesWhole_of_startsUnknown _ context s hstarts
      · exact executesWhole_of_followsSteps _ context s hfollows
    · exact executesWhole_of_refused _ context s hok

end

/-- A legacy plan of the copy carrier whose groups run its units backwards, the record unit first. -/
def backwardsPlan : CompiledExecutionPlan :=
  { buildCopyCarrierRecipe.plan with
    executionCapabilities := none
    dependencyGroups := buildCopyCarrierRecipe.plan.dependencyGroups.reverse }

/-- The handlers all return, and nothing is kept beforehand. -/
def backwardsRun : EStateM (ExecutorThrown Unit) (ExecutorState (OrderedMap String Json)) Json :=
  executeCompiledCarrierPlan
    ⟨fun _ _ _ _ => .ok .null, createMemoryPrimitiveEffectStore, "workflow-1", []⟩
    ⟨none, some backwardsPlan⟩

/-- **A legacy plan is run record first**, and thrown out after its last unit. -/
theorem not_executesWhole : ¬ ∀ (handlers : PrimitiveHandlers Unit)
    (context : CompiledCarrierExecutorContext) (s : ExecutorState (OrderedMap String Json)),
    (Execution.mk handlers createMemoryPrimitiveEffectStore "workflow-1" []).ExecutesWhole context
      s := by
  intro h
  have hrun : Wp backwardsRun ⟨.empty, [], []⟩ _ _ :=
    h (fun _ _ _ _ => .ok .null) ⟨none, some backwardsPlan⟩ ⟨.empty, [], []⟩
  have hthrown : (match result backwardsRun ⟨.empty, [], []⟩ with
      | .error (.invalid _) => true
      | _ => false) = true := by decide +kernel
  have hreached : (final backwardsRun ⟨.empty, [], []⟩).reached.map (·.unitId) =
      ["unit-copy-assemble", "unit-copy-check", "unit-copy-select", "unit-copy-brief",
        "unit-copy-context"] := by decide +kernel
  split at hthrown
  · next message hresult =>
    have hsame := (wp_iff_result.mp hrun).2 _ hresult
    dsimp only at hsame
    rw [hsame] at hreached
    exact nomatch hreached
  · exact nomatch hthrown

end MeiyeAgent
