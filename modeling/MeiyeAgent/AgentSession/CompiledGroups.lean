import MeiyeAgent.AgentSession.CompiledPlans

/-!
# AgentSession/CompiledGroups — ids of the groups of a compiled plan

A recipe names its groups in series, `g-execute` and `g-execute-2`; an expansion names them in
series once more, and two instances of a step take the second name again.

* `wellFormed_expandedPlan` — the plan of a single unit is the recipe's, ids and order.
* `not_nodup_groupIds` — that of several names two groups alike.
* `compilesWell_iff` — **a revision compiles well** exactly when it asks for one unit a carrier.
-/

open Effect

namespace MeiyeAgent

/-- **A plan in good form**: no two units and no two groups of one id, and the groups list the
units. -/
structure CompiledExecutionPlan.WellFormed (plan : CompiledExecutionPlan) : Prop where
  unitIds : (plan.units.map (·.unitId)).Nodup
  groupIds : (plan.dependencyGroups.map (·.groupId)).Nodup
  schedule : plan.dependencyGroups.flatMap (·.unitIds) = plan.units.map (·.unitId)

/-- **A revision compiles well**: each of its carriers has a plan in good form. -/
def CompilesWell (revision : MarketingPlanRevision) : Prop :=
  ∃ plans, buildCompiledCarrierExecutionPlans revision = .ok plans ∧
    ∀ deliverable ∈ revision.deliverables, ∃ plan ∈ plans,
      plan.carrier = deliverable.kind ∧ plan.executionPlan.WellFormed

/-- The deliverables of a carrier. -/
def MarketingPlanRevision.ofCarrier (revision : MarketingPlanRevision)
    (carrier : PlanDeliverableCarrier) : List PlanDeliverable :=
  revision.deliverables.filter (·.kind = carrier)

/-- What a revision asks of a carrier. -/
def carrierQuantity (revision : MarketingPlanRevision) (carrier : PlanDeliverableCarrier) : Nat :=
  ((revision.ofCarrier carrier).map (·.quantity)).sum

theorem length_expansions (deliverables : List PlanDeliverable) :
    (expansions deliverables).length = (deliverables.map (·.quantity)).sum := by
  rw [expansions, List.length_flatMap]
  simp only [List.length_map, List.length_range]

theorem carrierQuantity_pos {revision : MarketingPlanRevision} {deliverable : PlanDeliverable}
    (h : deliverable ∈ revision.deliverables) : 0 < carrierQuantity revision deliverable.kind := by
  have hmem : deliverable ∈ revision.ofCarrier deliverable.kind :=
    List.mem_filter.mpr ⟨h, decide_eq_true rfl⟩
  exact deliverable.quantity_pos.trans_le
    (List.single_le_sum (fun _ _ => Nat.zero_le _) _ (List.mem_map.mpr ⟨deliverable, hmem, rfl⟩))

/-! ## One unit -/

section Single

variable {recipe : CarrierUnitRecipe} {revision : MarketingPlanRevision}
  {deliverables : List PlanDeliverable} {unit : ExecutionUnit}

/-- A unit that is not repeated keeps its id. -/
theorem unitIds_expandUnit
    (h : unit.stepKey ∉ recipe.repeatableSteps ∨ (expansions deliverables).length ≤ 1) :
    (expandUnit recipe revision deliverables unit).map (·.unitId) = [unit.unitId] := by
  rw [expandUnit]
  split
  · rfl
  · next hrepeats => rw [if_pos (h.resolve_left hrepeats)]; rfl

variable {unitId : String}

theorem expandedIds_of_find
    (hfind : recipe.plan.units.reverse.find? (·.unitId = unitId) = some unit) :
    expandedIds recipe revision deliverables unitId =
      (expandUnit recipe revision deliverables unit).map (·.unitId) := by
  rw [expandedIds, hfind]

/-- One unit asked for, an id stands for itself. -/
theorem expandedIds_single (h : (expansions deliverables).length ≤ 1) (unitId : String) :
    expandedIds recipe revision deliverables unitId = [unitId] := by
  cases hfind : recipe.plan.units.reverse.find? (·.unitId = unitId) with
  | none => rw [expandedIds, hfind]
  | some unit =>
    rw [expandedIds_of_find hfind, unitIds_expandUnit (.inr h)]
    have hid : unit.unitId = unitId := by simpa using List.find?_some hfind
    rw [hid]

theorem unitIds_expandedPlan {carrier : PlanDeliverableCarrier}
    (h : (expansions deliverables).length ≤ 1) :
    (expandedPlan revision carrier deliverables).units.map (·.unitId) =
      (resolveRecipe carrier).plan.units.map (·.unitId) := by
  refine List.map_flatMap.trans ?_
  rw [List.flatMap_congr fun unit _ => unitIds_expandUnit (.inr h), List.map_eq_flatMap]

variable {carrier : PlanDeliverableCarrier}

theorem dependencyGroups_expandedPlan (h : (expansions deliverables).length ≤ 1) :
    (expandedPlan revision carrier deliverables).dependencyGroups =
      serialGroups (resolveRecipe carrier).plan.dependencyGroups := by
  refine congrArg serialGroups ((List.map_congr_left fun group _ => ?_).trans (List.map_id _))
  have hids : group.unitIds.flatMap (expandedIds (resolveRecipe carrier) revision deliverables) =
      group.unitIds := by
    rw [List.flatMap_congr fun unitId _ => expandedIds_single h unitId, List.flatMap_singleton']
  rw [hids]
  rfl

/-- **One unit asked for, the plan is the recipe's**, ids and order. -/
theorem wellFormed_expandedPlan (h : (expansions deliverables).length ≤ 1) :
    (expandedPlan revision carrier deliverables).WellFormed := by
  constructor
  · rw [unitIds_expandedPlan h]
    cases carrier <;> decide +kernel
  · rw [dependencyGroups_expandedPlan h]
    cases carrier <;> decide +kernel
  · rw [unitIds_expandedPlan h, dependencyGroups_expandedPlan h]
    cases carrier <;> decide +kernel

theorem parseCompiledPlan_single (h : (expansions deliverables).length ≤ 1) :
    parseCompiledPlan (expandedPlan revision carrier deliverables) =
      .ok (expandedPlan revision carrier deliverables) := by
  have hunits := congrArg List.length
    (@unitIds_expandedPlan revision deliverables carrier h)
  rw [List.length_map, List.length_map] at hunits
  rw [parseCompiledPlan, hunits, dependencyGroups_expandedPlan h]
  cases carrier <;> rfl

end Single

/-! ## Several units -/

section Several

variable {recipe : CarrierUnitRecipe} {revision : MarketingPlanRevision}
  {deliverables : List PlanDeliverable}

/-- The names a group takes in series. -/
def serialNames (group : DependencyGroup) : List String :=
  group.unitIds.mapIdx fun index _ =>
    if index = 0 then group.groupId else group.groupId ++ "-" ++ toString (index + 1)

theorem groupIds_serialGroups (groups : List DependencyGroup) :
    (serialGroups groups).map (·.groupId) = groups.flatMap serialNames := by
  rw [serialGroups, List.map_flatMap]
  refine List.flatMap_congr fun group _ => ?_
  rw [serialNames, List.mapIdx_eq_zipIdx_map, List.mapIdx_eq_zipIdx_map, List.map_map]
  rfl

/-- A group of two units takes a second name. -/
theorem second_mem_serialNames {group : DependencyGroup} (h : 2 ≤ group.unitIds.length) :
    group.groupId ++ "-2" ∈ serialNames group := by
  refine List.mem_mapIdx.mpr ⟨1, by omega, (if_neg Nat.one_ne_zero).trans ?_⟩
  rw [String.append_assoc]
  rfl

theorem groupId_mem_serialNames {group : DependencyGroup} (h : group.unitIds ≠ []) :
    group.groupId ∈ serialNames group :=
  List.mem_mapIdx.mpr ⟨0, List.length_pos_iff.mpr h, if_pos rfl⟩

/-- An id that stands for a unit of a recipe, repeated or not. -/
def CarrierUnitRecipe.hasUnit (recipe : CarrierUnitRecipe) (unitId : String) (repeats : Bool) :
    Bool :=
  (recipe.plan.units.reverse.find? (·.unitId = unitId)).any fun unit =>
    decide (unit.stepKey ∈ recipe.repeatableSteps) = repeats

/-- **Two groups of a recipe**, one of a step that repeats and the other under the name its second
instance takes. -/
structure NamedInSeries (recipe : CarrierUnitRecipe) (groupId repeated single : String) :
    Prop where
  groups : List.Sublist [⟨groupId, [repeated]⟩, ⟨groupId ++ "-2", [single]⟩]
    recipe.plan.dependencyGroups
  repeats : recipe.hasUnit repeated true = true
  stands : recipe.hasUnit single false = true

theorem namedInSeries (carrier : PlanDeliverableCarrier) : ∃ repeated single,
    NamedInSeries (resolveRecipe carrier) "g-execute" repeated single := by
  cases carrier with
  | copy =>
    refine ⟨"unit-copy-select", "unit-copy-check", ?_⟩
    constructor <;> decide +kernel
  | note =>
    refine ⟨"unit-note-pages", "unit-note-check", ?_⟩
    constructor <;> decide +kernel
  | media =>
    refine ⟨"unit-media-select", "unit-media-check", ?_⟩
    constructor <;> decide +kernel

theorem length_expandedIds (hmany : 1 < (expansions deliverables).length)
    (hrepeats : recipe.hasUnit unitId true = true) :
    (expandedIds recipe revision deliverables unitId).length =
      (expansions deliverables).length := by
  obtain ⟨unit, hfind, hkey⟩ := (Option.any_eq_true _ _).mp hrepeats
  have hmem : unit.stepKey ∈ recipe.repeatableSteps := by simpa using hkey
  rw [expandedIds_of_find hfind, expandUnit, if_neg (not_not.mpr hmem), if_neg (by omega),
    List.length_map, List.length_mapIdx]

theorem expandedIds_ne_nil (hstands : recipe.hasUnit unitId false = true) :
    expandedIds recipe revision deliverables unitId ≠ [] := by
  obtain ⟨unit, hfind, hkey⟩ := (Option.any_eq_true _ _).mp hstands
  have hnot : unit.stepKey ∉ recipe.repeatableSteps := by simpa using hkey
  rw [expandedIds_of_find hfind, unitIds_expandUnit (.inl hnot)]
  exact List.cons_ne_nil _ _

/-- **Several units asked for, two groups of the plan have one id.** -/
theorem not_nodup_groupIds {carrier : PlanDeliverableCarrier}
    (hmany : 1 < (expansions deliverables).length) :
    ¬ ((expandedPlan revision carrier deliverables).dependencyGroups.map (·.groupId)).Nodup := by
  obtain ⟨repeated, single, h⟩ := namedInSeries carrier
  let expand (group : DependencyGroup) : DependencyGroup :=
    { group with
      unitIds := group.unitIds.flatMap
        (expandedIds (resolveRecipe carrier) revision deliverables) }
  have hids : (expandedPlan revision carrier deliverables).dependencyGroups.map (·.groupId) =
      ((resolveRecipe carrier).plan.dependencyGroups.map expand).flatMap serialNames :=
    groupIds_serialGroups _
  intro hnodup
  rw [hids] at hnodup
  have hpair := hnodup.sublist ((h.groups.map expand).flatMap serialNames)
  have hfirst : "g-execute" ++ "-2" ∈ serialNames (expand ⟨"g-execute", [repeated]⟩) := by
    refine second_mem_serialNames ?_
    change 2 ≤ ([repeated].flatMap _).length
    rw [List.flatMap_singleton, length_expandedIds hmany h.repeats]
    exact hmany
  have hsecond : "g-execute" ++ "-2" ∈ serialNames (expand ⟨"g-execute" ++ "-2", [single]⟩) := by
    refine groupId_mem_serialNames ?_
    change [single].flatMap _ ≠ []
    rw [List.flatMap_singleton]
    exact expandedIds_ne_nil h.stands
  rw [List.map_cons, List.map_singleton, List.flatMap_cons, List.flatMap_singleton,
    List.nodup_append] at hpair
  exact hpair.2.2 _ hfirst _ hsecond rfl

end Several

/-! ## Revisions -/

theorem executionPlan_eq_expandedPlan {revision : MarketingPlanRevision}
    {plans : List CompiledCarrierExecutionPlan} {plan : CompiledCarrierExecutionPlan}
    (h : buildCompiledCarrierExecutionPlans revision = .ok plans) (hmem : plan ∈ plans) :
    plan.executionPlan = expandedPlan revision plan.carrier (revision.ofCarrier plan.carrier) := by
  obtain ⟨index, -, hplan⟩ := executionPlan_of_mem h hmem
  exact hplan.trans (ite_self _)

/-- **A revision compiles well exactly when it asks for one unit a carrier.** -/
theorem compilesWell_iff (revision : MarketingPlanRevision) : CompilesWell revision ↔
    ∀ deliverable ∈ revision.deliverables, carrierQuantity revision deliverable.kind = 1 := by
  refine ⟨fun ⟨plans, hplans, hwell⟩ deliverable hmem => ?_, fun hone => ?_⟩
  · obtain ⟨plan, hplan, hcarrier, hwell⟩ := hwell deliverable hmem
    have hfew : ¬ 1 < (expansions (revision.ofCarrier deliverable.kind)).length := fun hmany => by
      have hgroups := hwell.groupIds
      rw [executionPlan_eq_expandedPlan hplans hplan, hcarrier] at hgroups
      exact not_nodup_groupIds hmany hgroups
    have hpos := carrierQuantity_pos hmem
    rw [length_expansions] at hfew
    rw [carrierQuantity] at hpos ⊢
    omega
  · let carriers := (revision.deliverables.map (·.kind)).eraseDups
    have hsingle : ∀ carrier ∈ carriers,
        (expansions (revision.ofCarrier carrier)).length ≤ 1 := by
      intro carrier hcarrier
      obtain ⟨deliverable, hmem, rfl⟩ := List.mem_map.mp (List.mem_eraseDups.mp hcarrier)
      exact (length_expansions _).trans_le (hone deliverable hmem).le
    let compiled (carrier : PlanDeliverableCarrier) : CompiledCarrierExecutionPlan :=
      ⟨carrier, expandedPlan revision carrier (revision.ofCarrier carrier)⟩
    refine ⟨carriers.zipIdx.map fun place => compiled place.1, list_mapM_eq_ok.mpr ?_,
      fun deliverable hmem => ⟨compiled deliverable.kind, ?_, rfl, ?_⟩⟩
    · refine List.forall₂_map_right_iff.mpr (List.forall₂_same.mpr fun place hplace => ?_)
      simp only [bind_eq_ok, pure_eq_ok]
      exact ⟨_, parseCompiledPlan_single (hsingle _ (List.fst_mem_of_mem_zipIdx hplace)), by
        split <;> rfl⟩
    · have hcarrier : deliverable.kind ∈ carriers :=
        List.mem_eraseDups.mpr (List.mem_map.mpr ⟨deliverable, hmem, rfl⟩)
      obtain ⟨index, hindex⟩ := List.mem_iff_getElem?.mp hcarrier
      exact List.mem_map.mpr
        ⟨(deliverable.kind, index), List.mem_zipIdx_iff_getElem?.mpr hindex, rfl⟩
    · exact wellFormed_expandedPlan (hsingle _ (List.mem_eraseDups.mpr
        (List.mem_map.mpr ⟨deliverable, hmem, rfl⟩)))

/-- Two copies, in one deliverable. -/
def twoCopies : MarketingPlanRevision where
  planId := "plan"
  revision := 1
  deliverables := [⟨"deliverable", .copy, none, 2, none, Nat.zero_lt_two⟩]
  quoteRef := { id := "quote", revision := .number 1 }

/-- **Two copies compile into two groups of one id.** -/
theorem not_compilesWell : ¬ CompilesWell twoCopies := by
  rintro ⟨plans, hplans, hwell⟩
  obtain ⟨plan, hplan, hcarrier, hwell⟩ := hwell _ List.mem_cons_self
  have hgroups := hwell.groupIds
  rw [executionPlan_eq_expandedPlan hplans hplan, hcarrier] at hgroups
  exact not_nodup_groupIds (by decide) hgroups

end MeiyeAgent
