import MeiyeAgent.AgentSession.PlanCompiler
import MeiyeAgent.Harness.CarrierRestarts

/-!
# AgentSession/CompiledPlans — what is compiled can be executed

The compiler expands a recipe, the executor checks and runs the expansion.

* `expandedPlan_compatible` — an expansion passes the checks made on its units.
* `compiledExecutable_iff` — **a compiled plan is executed whole**, however often it is restarted,
  exactly when none of its inputs spells a word of an interpreter.
-/

open Effect

namespace MeiyeAgent

/-! ## Recipes -/

/-- The role a unit declares. -/
def ExecutionUnit.declaredRole (unit : ExecutionUnit) : Option String :=
  ((Json.object unit.declaredInput).field? "role").bind (·.text?)

/-- Where the step of a unit stands in a catalogue. -/
def CarrierUnitRecipe.stepAt (recipe : CarrierUnitRecipe) (unit : ExecutionUnit) : Option Nat :=
  recipe.catalogKeys.idxOf? unit.stepKey

/-- The ids differ, and so do those of their instances. -/
def Separated (unitId other : String) : Prop :=
  unitId ≠ other ∧ ¬ unitId.toList ++ ['-'] <+: other.toList ∧
    ¬ other.toList ++ ['-'] <+: unitId.toList

instance {unitId other : String} : Decidable (Separated unitId other) :=
  inferInstanceAs (Decidable (_ ∧ _))

/-- **A recipe in order**: its units are the steps of its catalogue, one by one, and so is its
schedule; the last records. -/
structure CarrierUnitRecipe.Ordered (recipe : CarrierUnitRecipe) : Prop where
  steps : recipe.plan.units.map recipe.stepAt =
    (List.range recipe.stepCatalog.length).map some
  keys : recipe.plan.units.map (·.stepKey) = recipe.catalogKeys
  roles : ∀ unit ∈ recipe.plan.units, unit.declaredRole.any (Text.trim · ≠ "") = true
  scheduled : recipe.plan.scheduled = recipe.plan.units.map (·.unitId)
  separated : (recipe.plan.units.map (·.unitId)).Pairwise Separated
  record : recipe.plan.units.getLast?.any (fun unit =>
    unit.primitive = some .record ∧ unit.stepKey ∉ recipe.repeatableSteps) = true
  repeats : ∀ unit ∈ recipe.plan.units, unit.stepKey ∈ recipe.repeatableSteps →
    (recipe.stepAt unit).any (recipe.repeatableAt ·) = true
  singles : ∀ step ∈ recipe.stepCatalog, step.repeatable = false →
    step.key ∉ recipe.repeatableSteps
  names : ∀ unit ∈ recipe.plan.units,
    unit.declaredInput.map (·.1) ⊆ ["stage", "role", "rubric"]
  reads : recipe.plan.units.head?.any (·.unitType = "context.read") = true

/-- **Each carrier's recipe is in order.** -/
theorem resolveRecipe_ordered (carrier : PlanDeliverableCarrier) :
    (resolveRecipe carrier).Ordered := by
  cases carrier <;> constructor <;> decide +kernel

/-! ## Units of an expansion -/

section

variable {recipe : CarrierUnitRecipe} {revision : MarketingPlanRevision}
  {deliverables : List PlanDeliverable} {unit : ExecutionUnit} {units : List ExecutionUnit}
  {unitId : String} {own : List (String × Json)}

/-- What a unit declares is read first. -/
theorem declaredRole_compiledUnit {role : String} (h : unit.declaredRole = some role) :
    (compiledUnit revision deliverables unit unitId own).declaredRole = some role := by
  rw [ExecutionUnit.declaredRole, Option.bind_eq_some_iff] at h ⊢
  obtain ⟨j, hj, hrole⟩ := h
  refine ⟨j, ?_, hrole⟩
  obtain ⟨field, hfind, hvalue⟩ := Option.map_eq_some_iff.mp hj
  refine Option.map_eq_some_iff.mpr ⟨field, ?_, hvalue⟩
  simp only [compiledUnit, ExecutionUnit.declaredInput, List.append_assoc]
  rw [List.find?_append]
  exact Option.or_eq_some_iff.mpr (.inl hfind)

theorem stepKey_compiledUnit {role : String} (h : unit.declaredRole = some role) :
    (compiledUnit revision deliverables unit unitId own).stepKey = unit.stepKey := by
  have hcompiled :
      (compiledUnit revision deliverables unit unitId own).declaredRole = unit.declaredRole :=
    (declaredRole_compiledUnit h).trans h.symm
  rw [ExecutionUnit.declaredRole, ExecutionUnit.declaredRole] at hcompiled
  rw [ExecutionUnit.stepKey, ExecutionUnit.stepKey, hcompiled]
  rfl

theorem compiledStepKey_compiledUnit (h : unit.declaredRole.any (Text.trim · ≠ "") = true) :
    compiledStepKey (compiledUnit revision deliverables unit unitId own) = .ok unit.stepKey := by
  obtain ⟨role, hrole, htrim⟩ := (Option.any_eq_true _ _).mp h
  have hcompiled : (compiledUnit revision deliverables unit unitId own).declaredRole = some role :=
    declaredRole_compiledUnit hrole
  have hread : (((compiledUnit revision deliverables unit unitId own).input.bind
      (·.field? "role")).bind (·.text?)) = some role := hcompiled
  have hkey : unit.stepKey = unit.primitiveText ++ ":" ++ role := by
    rw [ExecutionUnit.declaredRole] at hrole
    rw [ExecutionUnit.stepKey, hrole]
    rfl
  rw [compiledStepKey, compiledUnitRole, hread, hkey]
  dsimp only
  rw [if_neg (of_decide_eq_true htrim)]
  rfl

theorem mem_expandUnit {member : ExecutionUnit}
    (h : member ∈ expandUnit recipe revision deliverables unit) :
    ∃ unitId own, member = compiledUnit revision deliverables unit unitId own ∧
      (unitId = unit.unitId ∨ ∃ index, unitId = instanceId unit.unitId index) ∧
      (own = [] ∨ ∃ expansion ∈ expansions deliverables, own = expansion.fields) := by
  rw [expandUnit] at h
  split at h
  · exact ⟨_, _, List.mem_singleton.mp h, .inl rfl, .inl rfl⟩
  · split at h
    · refine ⟨_, _, List.mem_singleton.mp h, .inl rfl, ?_⟩
      cases hfirst : (expansions deliverables).head? with
      | none => exact .inl rfl
      | some expansion => exact .inr ⟨expansion, List.mem_of_head? hfirst, rfl⟩
    · obtain ⟨index, hindex, rfl⟩ := List.mem_mapIdx.mp h
      exact ⟨_, _, rfl, .inr ⟨index, rfl⟩, .inr ⟨_, List.getElem_mem hindex, rfl⟩⟩

theorem expandUnit_ne_nil (h : expansions deliverables ≠ []) :
    expandUnit recipe revision deliverables unit ≠ [] := by
  rw [expandUnit]
  split
  · exact List.cons_ne_nil _ _
  · split
    · exact List.cons_ne_nil _ _
    · exact fun hnil => h (List.mapIdx_eq_nil_iff.mp hnil)

/-! ### The checks on the units -/

/-- A unit that fits a recipe. -/
structure Fits (recipe : CarrierUnitRecipe) (unit : ExecutionUnit) : Prop where
  type : unit.unitType ∈ recipe.plan.units.map (·.unitType)
  key : compiledStepKey unit = .ok unit.stepKey
  step : ∃ index, recipe.stepAt unit = some index

theorem Fits.stepIndex (h : Fits recipe unit) {index : Nat} (hindex : recipe.stepAt unit = some index) :
    recipe.stepIndex unit = .ok index := by
  rw [CarrierUnitRecipe.stepIndex, h.key]
  rw [CarrierUnitRecipe.stepAt] at hindex
  simp only [bind_eq_ok]
  exact ⟨_, rfl, by rw [hindex]; rfl⟩

/-- A unit may follow another: its step is not an earlier one, and the same only if it repeats. -/
def CarrierUnitRecipe.Follows (recipe : CarrierUnitRecipe) (unit other : ExecutionUnit) : Prop :=
  ∀ index ∈ recipe.stepAt unit, ∀ index' ∈ recipe.stepAt other, index ≤ index' ∧
    (unit.stepKey = other.stepKey → recipe.repeatableAt index' = true)

/-- **Units that fit and follow one another pass**; the keys they name are seen. -/
theorem checkUnits_of_fits {cursor : Nat} {seen : List String}
    (hfits : ∀ unit ∈ units, Fits recipe unit)
    (hfrom : ∀ unit ∈ units, ∀ index ∈ recipe.stepAt unit, cursor ≤ index ∧
      (unit.stepKey ∈ seen → recipe.repeatableAt index = true))
    (hfollows : units.Pairwise recipe.Follows) :
    ∃ keys, recipe.checkUnits cursor seen units = .ok keys ∧
      ∀ key, key ∈ keys ↔ key ∈ seen ∨ ∃ unit ∈ units, unit.stepKey = key := by
  induction units generalizing cursor seen with
  | nil => exact ⟨seen, rfl, fun key => by simp⟩
  | cons unit units ih =>
    obtain ⟨hfirst, hfollows⟩ := List.pairwise_cons.mp hfollows
    have hfit := hfits unit List.mem_cons_self
    obtain ⟨index, hindex⟩ := hfit.step
    obtain ⟨hle, hrepeat⟩ := hfrom unit List.mem_cons_self index hindex
    have hcheck : recipe.checkUnit cursor seen unit = .ok (index, unit.stepKey) := by
      rw [CarrierUnitRecipe.checkUnit, hfit.key, hfit.stepIndex hindex, if_neg (not_not.mpr hfit.type)]
      simp only [guard_eq_ok, bind_eq_ok, pure_eq_ok]
      refine ⟨_, rfl, index, rfl, not_lt.mpr hle, ?_, rfl⟩
      rintro ⟨hmem, hnot⟩
      cases (hrepeat hmem).symm.trans hnot
    have hrest : ∀ other ∈ units, ∀ index' ∈ recipe.stepAt other, index ≤ index' ∧
        (other.stepKey ∈ unit.stepKey :: seen → recipe.repeatableAt index' = true) := by
      intro other hother index' hindex'
      obtain ⟨hle', hsame⟩ := hfirst other hother index hindex index' hindex'
      refine ⟨hle', fun hseen => ?_⟩
      rcases List.mem_cons.mp hseen with heq | hseen
      · exact hsame heq.symm
      · exact (hfrom other (List.mem_cons_of_mem unit hother) index' hindex').2 hseen
    obtain ⟨keys, hkeys, hmem⟩ := ih
      (fun other hother => hfits other (List.mem_cons_of_mem unit hother)) hrest hfollows
    refine ⟨keys, ?_, fun key => ?_⟩
    · simp only [CarrierUnitRecipe.checkUnits, bind_eq_ok]
      exact ⟨_, hcheck, hkeys⟩
    · rw [hmem, List.mem_cons, List.exists_mem_cons_iff, eq_comm (a := key)]
      tauto

namespace CarrierUnitRecipe.Ordered

/-- Each unit of the recipe has a step. -/
theorem step_of_mem (h : recipe.Ordered) (hunit : unit ∈ recipe.plan.units) :
    ∃ index, recipe.stepAt unit = some index := by
  have hmem : recipe.stepAt unit ∈ (List.range recipe.stepCatalog.length).map some :=
    h.steps ▸ List.mem_map_of_mem hunit
  obtain ⟨index, -, hindex⟩ := List.mem_map.mp hmem
  exact ⟨index, hindex.symm⟩

/-- The steps of the recipe come one after another. -/
theorem steps_lt (h : recipe.Ordered) : recipe.plan.units.Pairwise fun unit other =>
    ∀ index ∈ recipe.stepAt unit, ∀ index' ∈ recipe.stepAt other, index < index' := by
  have hpairs : (recipe.plan.units.map recipe.stepAt).Pairwise fun step other =>
      ∀ index ∈ step, ∀ index' ∈ other, index < index' := by
    rw [h.steps, List.pairwise_map]
    refine List.pairwise_lt_range.imp fun hlt index hindex index' hindex' => ?_
    rwa [← Option.some.inj hindex, ← Option.some.inj hindex']
  exact List.pairwise_map.mp hpairs

theorem role_of_mem (h : recipe.Ordered) (hunit : unit ∈ recipe.plan.units) :
    ∃ role, unit.declaredRole = some role :=
  ((Option.any_eq_true _ _).mp (h.roles unit hunit)).imp fun _ h => h.1

variable {member : ExecutionUnit}

/-- A member of an expansion names the step of its unit. -/
theorem stepKey_of_mem (h : recipe.Ordered) (hunit : unit ∈ recipe.plan.units)
    (hmember : member ∈ expandUnit recipe revision deliverables unit) :
    member.stepKey = unit.stepKey := by
  obtain ⟨role, hrole⟩ := h.role_of_mem hunit
  obtain ⟨unitId, own, rfl, -, -⟩ := mem_expandUnit hmember
  exact stepKey_compiledUnit hrole

theorem stepAt_of_mem (h : recipe.Ordered) (hunit : unit ∈ recipe.plan.units)
    (hmember : member ∈ expandUnit recipe revision deliverables unit) :
    recipe.stepAt member = recipe.stepAt unit := by
  rw [CarrierUnitRecipe.stepAt, h.stepKey_of_mem hunit hmember, CarrierUnitRecipe.stepAt]

theorem fits_of_mem (h : recipe.Ordered) (hunit : unit ∈ recipe.plan.units)
    (hmember : member ∈ expandUnit recipe revision deliverables unit) : Fits recipe member := by
  have hkey := h.stepKey_of_mem hunit hmember
  have hstep := h.stepAt_of_mem hunit hmember
  obtain ⟨unitId, own, rfl, -, -⟩ := mem_expandUnit hmember
  refine ⟨List.mem_map.mpr ⟨unit, hunit, rfl⟩, ?_, ?_⟩
  · rw [hkey]
    exact compiledStepKey_compiledUnit (h.roles unit hunit)
  · rw [hstep]
    exact h.step_of_mem hunit

/-- **The members of an expansion follow one another.** -/
theorem follows (h : recipe.Ordered) :
    (recipe.plan.units.flatMap (expandUnit recipe revision deliverables)).Pairwise
      recipe.Follows := by
  refine List.pairwise_flatMap.mpr ⟨fun unit hunit => ?_, ?_⟩
  · by_cases hrepeats : unit.stepKey ∈ recipe.repeatableSteps
    · obtain ⟨step, hstep, hrepeatable⟩ := (Option.any_eq_true _ _).mp (h.repeats unit hunit hrepeats)
      refine List.pairwise_of_forall_mem_list fun x hx y hy index hindex index' hindex' => ?_
      rw [h.stepAt_of_mem hunit hx, hstep] at hindex
      rw [h.stepAt_of_mem hunit hy, hstep] at hindex'
      rw [← Option.some.inj hindex, ← Option.some.inj hindex']
      exact ⟨le_refl step, fun _ => hrepeatable⟩
    · rw [expandUnit, if_pos hrepeats]
      exact List.pairwise_singleton _ _
  · refine h.steps_lt.imp_of_mem fun {unit other} hunit hother hlt x hx y hy => ?_
    intro index hindex index' hindex'
    rw [h.stepAt_of_mem hunit hx] at hindex
    rw [h.stepAt_of_mem hother hy] at hindex'
    have hless := hlt index hindex index' hindex'
    refine ⟨hless.le, fun hkey => ?_⟩
    -- units of one key have one step
    rw [h.stepKey_of_mem hunit hx, h.stepKey_of_mem hother hy] at hkey
    rw [CarrierUnitRecipe.stepAt, hkey, ← CarrierUnitRecipe.stepAt] at hindex
    rw [Option.some.inj (hindex.symm.trans hindex')] at hless
    exact absurd hless (lt_irrefl _)

variable {step : CarrierStepDeclaration}

/-- Every step of the catalogue is the step of a unit. -/
theorem unit_of_step (h : recipe.Ordered) (hstep : step ∈ recipe.stepCatalog) :
    ∃ unit ∈ recipe.plan.units, unit.stepKey = step.key := by
  have hkey : step.key ∈ recipe.plan.units.map (·.stepKey) := h.keys ▸ List.mem_map_of_mem hstep
  exact List.mem_map.mp hkey

/-- Every step of the catalogue is named. -/
theorem key_of_mem (h : recipe.Ordered) (revision : MarketingPlanRevision)
    (hne : expansions deliverables ≠ []) (hstep : step ∈ recipe.stepCatalog) :
    ∃ unit ∈ recipe.plan.units.flatMap (expandUnit recipe revision deliverables),
      unit.stepKey = step.key := by
  obtain ⟨unit, hunit, hsame⟩ := h.unit_of_step hstep
  have hmembers : expandUnit recipe revision deliverables unit ≠ [] := expandUnit_ne_nil hne
  obtain ⟨member, hmember⟩ := List.exists_mem_of_ne_nil _ hmembers
  exact ⟨member, List.mem_flatMap.mpr ⟨unit, hunit, hmember⟩,
    (h.stepKey_of_mem hunit hmember).trans hsame⟩

/-- The last unit records, and there is one of it. -/
theorem getLast?_record (h : recipe.Ordered) :
    (recipe.plan.units.flatMap (expandUnit recipe revision deliverables)).getLast?.bind
      (·.primitive) = some .record := by
  obtain ⟨last, hlast, hrecord⟩ := (Option.any_eq_true _ _).mp h.record
  obtain ⟨hprimitive, hsingle⟩ := of_decide_eq_true hrecord
  obtain ⟨before, hunits⟩ := List.getLast?_eq_some_iff.mp hlast
  rw [hunits, List.flatMap_append, List.flatMap_singleton, expandUnit, if_pos hsingle,
    List.getLast?_concat, Option.bind_some]
  exact hprimitive

end CarrierUnitRecipe.Ordered

/-! ### Ids -/

theorem instanceId_injective {index index' : Nat}
    (h : instanceId unitId index = instanceId unitId index') : index = index' := by
  have hrepr : Nat.repr (index + 1) = Nat.repr (index' + 1) := (String.append_right_inj _).mp h
  exact Nat.succ.inj (Nat.repr_inj.mp hrepr)

/-- An id of an expansion is the id of the unit, or goes on after it. -/
theorem unitId_of_mem {member : ExecutionUnit}
    (h : member ∈ expandUnit recipe revision deliverables unit) :
    member.unitId = unit.unitId ∨ unit.unitId.toList ++ ['-'] <+: member.unitId.toList := by
  obtain ⟨unitId, own, rfl, hid, -⟩ := mem_expandUnit h
  rcases hid with rfl | ⟨index, rfl⟩
  · exact .inl rfl
  · refine .inr ⟨(toString (index + 1)).toList, ?_⟩
    simp [compiledUnit, instanceId]

theorem nodup_expandUnit : ((expandUnit recipe revision deliverables unit).map (·.unitId)).Nodup := by
  rw [expandUnit]
  split
  · exact List.nodup_singleton _
  · split
    · exact List.nodup_singleton _
    · rw [List.Nodup, List.pairwise_iff_getElem]
      intro i j hi hj hlt heq
      simp only [List.getElem_map, List.getElem_mapIdx, compiledUnit] at heq
      exact absurd (instanceId_injective heq) (Nat.ne_of_lt hlt)

/-- Separated ids stay apart. -/
theorem Separated.ne {other : ExecutionUnit} (h : Separated unit.unitId other.unitId)
    {x y : ExecutionUnit} (hx : x ∈ expandUnit recipe revision deliverables unit)
    (hy : y ∈ expandUnit recipe revision deliverables other) : x.unitId ≠ y.unitId := by
  intro heq
  obtain ⟨hne, hnot, hnot'⟩ := h
  rcases unitId_of_mem hx with hsame | hlonger
  · rcases unitId_of_mem hy with hsame' | hlonger'
    · exact hne (hsame.symm.trans (heq.trans hsame'))
    · rw [← heq, hsame] at hlonger'
      exact hnot' hlonger'
  · rw [heq] at hlonger
    rcases unitId_of_mem hy with hsame' | hlonger'
    · rw [hsame'] at hlonger
      exact hnot hlonger
    · -- of two prefixes the shorter starts the longer
      rcases List.prefix_or_prefix_of_prefix hlonger hlonger' with hprefix | hprefix
      · rcases List.prefix_concat_iff.mp hprefix with hsame | hprefix
        · exact hne (String.toList_inj.mp (List.append_cancel_right hsame))
        · exact hnot hprefix
      · rcases List.prefix_concat_iff.mp hprefix with hsame | hprefix
        · exact hne (String.toList_inj.mp (List.append_cancel_right hsame.symm))
        · exact hnot' hprefix

/-- **The ids of an expansion are distinct.** -/
theorem CarrierUnitRecipe.Ordered.nodup (h : recipe.Ordered) :
    ((recipe.plan.units.flatMap (expandUnit recipe revision deliverables)).map
      (·.unitId)).Nodup := by
  rw [List.map_flatMap]
  refine List.nodup_flatMap.mpr ⟨fun unit _ => nodup_expandUnit, ?_⟩
  refine (List.pairwise_map.mp h.separated).imp fun hseparated => ?_
  intro unitId hx hy
  obtain ⟨x, hmember, rfl⟩ := List.mem_map.mp hx
  obtain ⟨y, hmember', heq⟩ := List.mem_map.mp hy
  exact hseparated.ne hmember hmember' heq.symm

/-- Indexed pieces that hold their element alone put the list together. -/
theorem flatMap_mapIdx_singleton {α β : Type} {g : β → List α} : ∀ {l : List α} {f : Nat → α → β},
    (∀ index a, g (f index a) = [a]) → (l.mapIdx f).flatMap g = l
  | [], _, _ => rfl
  | a :: l, f, h => by
    rw [List.mapIdx_cons, List.flatMap_cons, h, flatMap_mapIdx_singleton fun index => h (index + 1),
      List.singleton_append]

/-- The groups of one unit each schedule what the groups did. -/
theorem flatMap_serialGroups (groups : List DependencyGroup) :
    (serialGroups groups).flatMap (·.unitIds) = groups.flatMap (·.unitIds) := by
  rw [serialGroups, List.flatMap_assoc]
  exact List.flatMap_congr fun group _ => flatMap_mapIdx_singleton fun _ _ => rfl

theorem length_of_mem_serialGroups {groups : List DependencyGroup} {group : DependencyGroup}
    (h : group ∈ serialGroups groups) : group.unitIds.length = 1 := by
  obtain ⟨source, -, hgroup⟩ := List.mem_flatMap.mp h
  obtain ⟨index, hindex, rfl⟩ := List.mem_mapIdx.mp hgroup
  rfl

/-- **An expansion is scheduled in the order of its units.** -/
theorem scheduled_expandedPlan (revision : MarketingPlanRevision)
    (carrier : PlanDeliverableCarrier) (deliverables : List PlanDeliverable) :
    (expandedPlan revision carrier deliverables).scheduled =
      (expandedPlan revision carrier deliverables).units.map (·.unitId) := by
  have h := resolveRecipe_ordered carrier
  have hids : ∀ unit ∈ (resolveRecipe carrier).plan.units,
      expandedIds (resolveRecipe carrier) revision deliverables unit.unitId =
        (expandUnit (resolveRecipe carrier) revision deliverables unit).map (·.unitId) := by
    intro unit hunit
    have hnodup : ((resolveRecipe carrier).plan.units.reverse.map (·.unitId)).Nodup := by
      rw [List.map_reverse, List.nodup_reverse]
      exact h.separated.imp fun hseparated => hseparated.1
    have hfind : (resolveRecipe carrier).plan.units.reverse.find? (·.unitId = unit.unitId) =
        some unit :=
      Table.find?_of_nodup hnodup (List.mem_reverse.mpr hunit) fun _ _ => decide_eq_true_iff
    rw [expandedIds, hfind]
  have hscheduled := h.scheduled
  rw [CompiledExecutionPlan.scheduled] at hscheduled ⊢
  simp only [expandedPlan, flatMap_serialGroups, List.flatMap_map, List.map_flatMap]
  rw [← List.flatMap_assoc, hscheduled, List.flatMap_map]
  exact List.flatMap_congr hids

/-! ### Instances -/

/-- The units of one key are the members of one expansion. -/
theorem CarrierUnitRecipe.Ordered.filter_stepKey (h : recipe.Ordered)
    (hunit : unit ∈ recipe.plan.units) :
    (recipe.plan.units.flatMap (expandUnit recipe revision deliverables)).filter
      (·.stepKey = unit.stepKey) = expandUnit recipe revision deliverables unit := by
  obtain ⟨index, hindex⟩ := h.step_of_mem hunit
  have hlt := h.steps_lt
  obtain ⟨before, after, hsplit⟩ := List.append_of_mem hunit
  -- no other unit has the key
  have hother : ∀ other ∈ recipe.plan.units, other.stepKey = unit.stepKey →
      recipe.stepAt other = some index := by
    intro other _ hkey
    rw [← hindex, CarrierUnitRecipe.stepAt, hkey, CarrierUnitRecipe.stepAt]
  rw [hsplit, List.pairwise_append, List.pairwise_cons] at hlt
  have hbefore : ∀ other ∈ before, other.stepKey ≠ unit.stepKey := by
    intro other hmem hkey
    have hsame := hother other (hsplit ▸ List.mem_append_left _ hmem) hkey
    exact lt_irrefl _ (hlt.2.2 other hmem unit List.mem_cons_self index hsame index hindex)
  have hafter : ∀ other ∈ after, other.stepKey ≠ unit.stepKey := by
    intro other hmem hkey
    have hsame := hother other
      (hsplit ▸ List.mem_append_right _ (List.mem_cons_of_mem unit hmem)) hkey
    exact lt_irrefl _ (hlt.2.1.1 other hmem index hindex index hsame)
  have hnone : ∀ others : List ExecutionUnit, others ⊆ recipe.plan.units →
      (∀ other ∈ others, other.stepKey ≠ unit.stepKey) →
      (others.flatMap (expandUnit recipe revision deliverables)).filter
        (·.stepKey = unit.stepKey) = [] := by
    intro others hsubset hne
    refine List.filter_eq_nil_iff.mpr fun member hmember heq => ?_
    obtain ⟨other, hmem, hmember⟩ := List.mem_flatMap.mp hmember
    refine hne other hmem ?_
    rw [← h.stepKey_of_mem (hsubset hmem) hmember, of_decide_eq_true heq]
  have hall : (expandUnit recipe revision deliverables unit).filter
      (·.stepKey = unit.stepKey) = expandUnit recipe revision deliverables unit :=
    List.filter_eq_self.mpr fun member hmember =>
      decide_eq_true (h.stepKey_of_mem hunit hmember)
  have hsubset : before ⊆ recipe.plan.units ∧ after ⊆ recipe.plan.units := by
    rw [hsplit]
    exact ⟨List.subset_append_left _ _, fun other hmem =>
      List.mem_append_right _ (List.mem_cons_of_mem unit hmem)⟩
  rw [hsplit, List.flatMap_append, List.flatMap_cons, List.filter_append, List.filter_append,
    hnone before hsubset.1 hbefore, hnone after hsubset.2 hafter, hall, List.nil_append,
    List.append_nil]

/-- What a unit says of the instance it is. -/
def ExecutionUnit.instanceOf (unit : ExecutionUnit) : Option Json × Option Json :=
  ((unit.input.bind (·.field? "deliverableId")), (unit.input.bind (·.field? "deliverableIndex")))

def DeliverableExpansion.instance (expansion : DeliverableExpansion) : Option Json × Option Json :=
  (some (.text expansion.deliverableId), some (.ofNat expansion.deliverableIndex))

/-- A unit with an expansion of its own says which. -/
theorem CarrierUnitRecipe.Ordered.instanceOf (h : recipe.Ordered)
    (hunit : unit ∈ recipe.plan.units) {expansion : DeliverableExpansion} :
    (compiledUnit revision deliverables unit unitId expansion.fields).instanceOf =
      expansion.instance := by
  have hskip : ∀ {name : String} {fields : List (String × Json)}, name ∉ ["stage", "role", "rubric"] →
      (Json.object (unit.declaredInput ++ fields)).field? name = (Json.object fields).field? name := by
    intro name fields hname
    have hnone : unit.declaredInput.find? (·.1 = name) = none := by
      refine List.find?_eq_none.mpr fun field hfield heq => hname ?_
      exact of_decide_eq_true heq ▸ h.names unit hunit (List.mem_map_of_mem hfield)
    rw [Json.field?, List.find?_append, hnone, Option.none_or, Json.field?]
  rw [ExecutionUnit.instanceOf, compiledUnit]
  simp only [Option.bind_some, List.append_assoc]
  rw [hskip (by decide), hskip (by decide)]
  rfl

/-- **A repeatable step has one instance for each unit of a deliverable.** -/
theorem CarrierUnitRecipe.Ordered.instances (h : recipe.Ordered)
    (hne : expansions deliverables ≠ []) (hstep : step ∈ recipe.stepCatalog)
    (hrepeatable : step.repeatable = true) :
    ((recipe.plan.units.flatMap (expandUnit recipe revision deliverables)).filter
      (·.stepKey = step.key)).map (·.instanceOf) = (expansions deliverables).map (·.instance) := by
  obtain ⟨unit, hunit, hkey⟩ := h.unit_of_step hstep
  have hrepeats : unit.stepKey ∈ recipe.repeatableSteps :=
    hkey ▸ List.mem_map_of_mem (List.mem_filter.mpr ⟨hstep, hrepeatable⟩)
  rw [← hkey, h.filter_stepKey hunit, expandUnit, if_neg (not_not.mpr hrepeats)]
  split
  · next hone =>
    cases hlist : expansions deliverables with
    | nil => exact absurd hlist hne
    | cons expansion rest =>
      rw [hlist, List.length_cons] at hone
      obtain rfl := List.eq_nil_of_length_eq_zero (by omega : rest.length = 0)
      rw [List.head?_cons, Option.map_some, Option.getD_some, List.map_singleton,
        List.map_singleton, h.instanceOf hunit]
  · refine List.ext_getElem (by simp) fun index hindex hindex' => ?_
    simp only [List.getElem_map, List.getElem_mapIdx, h.instanceOf hunit]

/-- **Every other step has one unit.** -/
theorem CarrierUnitRecipe.Ordered.single (h : recipe.Ordered) (hstep : step ∈ recipe.stepCatalog)
    (hsingle : step.repeatable = false) :
    ((recipe.plan.units.flatMap (expandUnit recipe revision deliverables)).filter
      (·.stepKey = step.key)).length = 1 := by
  obtain ⟨unit, hunit, hkey⟩ := h.unit_of_step hstep
  rw [← hkey, h.filter_stepKey hunit, expandUnit, if_pos (hkey ▸ h.singles step hstep hsingle),
    List.length_singleton]

/-! ### Words -/

/-- `JSON.stringify` of what every unit is given. -/
def compiledInputs (revision : MarketingPlanRevision) (deliverables : List PlanDeliverable) : Json :=
  .object (commonInput revision deliverables ++ Json.given "memoryContext" revision.memoryContext)

theorem forbidden_isWord {word : String} (h : word ∈ FORBIDDEN_WORDS) : Json.IsWord word.toList := by
  have hall : ∀ word ∈ FORBIDDEN_WORDS, Json.IsWord word.toList := by decide +kernel
  exact hall word h

theorem includesQuoted_iff {word : String} (h : word ∈ FORBIDDEN_WORDS) {j : Json} :
    j.includesQuoted word = true ↔ j.Quotes word.toList := by
  rw [Json.includesQuoted, decide_eq_true_iff, Json.quoted_infix_chars (forbidden_isWord h)]

theorem quotes_append {word : List Char} {fields others : List (String × Json)} :
    Json.Quotes word (.object (fields ++ others)) ↔
      Json.Quotes word (.object fields) ∨ Json.Quotes word (.object others) := by
  simp only [Json.quotes_object, List.mem_append, or_and_right, exists_or]

theorem quotes_given {word : List Char} {name : String} {value : Option Json} :
    Json.Quotes word (.object (Json.given name value)) ↔
      ∃ j ∈ value, Json.Spells word name ∨ Json.Quotes word j := by
  cases value with
  | none => simp [Json.given, Json.quotes_object]
  | some j => simp [Json.given, Json.quotes_object]

/-- The names and the texts of a plan that are not of its inputs. -/
def planTexts : List String :=
  ["schemaVersion", "compiled-execution-plan/v1", "executionCapabilities", "scheduling", "serial",
    "retry", "none", "cache", "units", "dependencyGroups", "boundedRetry", "unitId", "unitType",
    "primitive", "input", "groupId", "unitIds", "deliverableId", "deliverableIndex"]

variable {text : String}

theorem not_spells_planTexts {word : String} (h : word ∈ FORBIDDEN_WORDS) (htext : text ∈ planTexts) :
    ¬ Json.Spells word.toList text := by
  have hall : ∀ word ∈ FORBIDDEN_WORDS, ∀ text ∈ planTexts, ¬ (text.toList = word.toList ∨
      '"' :: word.toList <:+ text.toList) := by decide +kernel
  exact hall word h text htext

/-- A text with a dash and no quote spells no word. -/
theorem not_spells_of_dash {word : String} (h : word ∈ FORBIDDEN_WORDS) (hdash : '-' ∈ text.toList)
    (hquote : '"' ∉ text.toList) : ¬ Json.Spells word.toList text := by
  rintro (heq | hsuffix)
  · rw [heq] at hdash
    exact nomatch (forbidden_isWord h).2 '-' hdash
  · exact hquote (hsuffix.subset List.mem_cons_self)

theorem not_quotes_ofNat {word : List Char} (n : Nat) : ¬ Json.Quotes word (.ofNat n) := by
  rw [Json.ofNat, Json.Quotes]
  refine Json.not_quoted_infix_of_notMem fun hmem => ?_
  have hdigit := Nat.isDigit_of_mem_toDigits (by decide) (by decide) (Nat.toList_repr ▸ hmem)
  exact absurd hdigit (by decide)

/-- **A recipe without words**: no text of its own spells one. -/
structure CarrierUnitRecipe.Plain (recipe : CarrierUnitRecipe) : Prop where
  types : ∀ unit ∈ recipe.plan.units, ∀ word ∈ FORBIDDEN_WORDS,
    ¬ Json.Spells word.toList unit.unitType
  ids : ∀ unit ∈ recipe.plan.units, '-' ∈ unit.unitId.toList ∧ '"' ∉ unit.unitId.toList
  groups : ∀ group ∈ recipe.plan.dependencyGroups,
    '-' ∈ group.groupId.toList ∧ '"' ∉ group.groupId.toList
  declared : ∀ unit ∈ recipe.plan.units, ∀ word ∈ FORBIDDEN_WORDS,
    (Json.object unit.declaredInput).includesQuoted word = false

instance {word : List Char} {value : String} : Decidable (Json.Spells word value) :=
  inferInstanceAs (Decidable (_ ∨ _))

theorem resolveRecipe_plain (carrier : PlanDeliverableCarrier) :
    (resolveRecipe carrier).Plain := by
  cases carrier <;> constructor <;> decide +kernel

variable {word : String}

/-- A text that goes on with a dash and a number has no quote of its own. -/
theorem not_spells_numbered (h : word ∈ FORBIDDEN_WORDS) {n : Nat} (hquote : '"' ∉ text.toList) :
    ¬ Json.Spells word.toList (text ++ "-" ++ toString n) := by
  have hdigits : '"' ∉ (toString n).toList := by
    intro hmem
    have hdigit := Nat.isDigit_of_mem_toDigits (by decide) (by decide) (Nat.toList_repr ▸ hmem)
    exact absurd hdigit (by decide)
  refine not_spells_of_dash h ?_ ?_
  · simp
  · simpa [hquote] using hdigits

/-- The instance a unit is says no more than the deliverables do. -/
theorem quotes_expansion {expansion : DeliverableExpansion} (hword : word ∈ FORBIDDEN_WORDS)
    (hmem : expansion ∈ expansions deliverables)
    (h : Json.Quotes word.toList (.object expansion.fields)) :
    Json.Quotes word.toList (.object (commonInput revision deliverables)) := by
  obtain ⟨deliverable, hdeliverable, hmem⟩ := List.mem_flatMap.mp hmem
  obtain ⟨index, -, rfl⟩ := List.mem_map.mp hmem
  simp only [Json.quotes_object, DeliverableExpansion.fields, List.exists_mem_cons_iff,
    List.not_mem_nil, false_and, exists_false, or_false] at h
  have hname : ¬ Json.Spells word.toList "deliverableId" := not_spells_planTexts hword (by decide)
  have hname' : ¬ Json.Spells word.toList "deliverableIndex" :=
    not_spells_planTexts hword (by decide)
  have hid : Json.Quotes word.toList (.text deliverable.deliverableId) := by
    rcases h with (h | h) | h | h
    · exact absurd h hname
    · exact h
    · exact absurd h hname'
    · exact absurd h (not_quotes_ofNat index)
  refine Json.quotes_object.mpr ⟨("deliverables", .array (deliverables.map (·.toJson))),
    by simp [commonInput], .inr ?_⟩
  refine Json.quotes_array.mpr ⟨_, List.mem_map_of_mem hdeliverable, ?_⟩
  exact Json.quotes_object.mpr ⟨("deliverableId", _), by simp, .inr hid⟩

theorem not_spells_primitive (h : word ∈ FORBIDDEN_WORDS) (primitive : CompiledPrimitiveId) :
    ¬ Json.Spells word.toList primitive.text := by
  have hall : ∀ word ∈ FORBIDDEN_WORDS, ¬ Json.Spells word.toList primitive.text := by
    cases primitive <;> decide +kernel
  exact hall word h

theorem not_spells_unitId (hplain : recipe.Plain) (hword : word ∈ FORBIDDEN_WORDS)
    (hunit : unit ∈ recipe.plan.units) {member : ExecutionUnit}
    (hmember : member ∈ expandUnit recipe revision deliverables unit) :
    ¬ Json.Spells word.toList member.unitId := by
  obtain ⟨hdash, hquote⟩ := hplain.ids unit hunit
  obtain ⟨unitId, own, rfl, rfl | ⟨index, rfl⟩, -⟩ := mem_expandUnit hmember
  · exact not_spells_of_dash hword hdash hquote
  · exact not_spells_numbered hword hquote

/-- **A unit spells a word only if the inputs do.** -/
theorem quotes_of_member (hplain : recipe.Plain) (hword : word ∈ FORBIDDEN_WORDS)
    (hunit : unit ∈ recipe.plan.units) {member : ExecutionUnit}
    (hmember : member ∈ expandUnit recipe revision deliverables unit)
    (h : Json.Quotes word.toList member.toJson) :
    Json.Quotes word.toList (compiledInputs revision deliverables) := by
  have hunitId := not_spells_unitId hplain hword hunit hmember
  obtain ⟨unitId, own, rfl, -, hown⟩ := mem_expandUnit hmember
  have hnames {text : String} (htext : text ∈ planTexts) (hspells : Json.Spells word.toList text) :
      False := not_spells_planTexts hword htext hspells
  simp only [ExecutionUnit.toJson, quotes_append, compiledUnit] at h
  rcases h with (h | h) | h
  · simp only [Json.quotes_object, List.exists_mem_cons_iff, List.not_mem_nil, false_and,
      exists_false, or_false] at h
    rcases h with (h | h) | h | h
    · exact (hnames (by decide) h).elim
    · exact absurd h hunitId
    · exact (hnames (by decide) h).elim
    · exact absurd h (hplain.types unit hunit word hword)
  · obtain ⟨j, hj, h⟩ := quotes_given.mp h
    obtain ⟨primitive, -, rfl⟩ := Option.map_eq_some_iff.mp hj
    rcases h with h | h
    · exact (hnames (by decide) h).elim
    · exact absurd h (not_spells_primitive hword primitive)
  · obtain ⟨j, hj, h⟩ := quotes_given.mp h
    obtain rfl := Option.some.inj hj
    rcases h with h | h
    · exact (hnames (by decide) h).elim
    · simp only [quotes_append] at h
      refine quotes_append.mpr ?_
      rcases h with ((h | h) | h) | h
      · exact nomatch ((includesQuoted_iff hword).mpr h).symm.trans
          (hplain.declared unit hunit word hword)
      · exact .inl h
      · rcases hown with rfl | ⟨expansion, hexpansion, rfl⟩
        · obtain ⟨_, hmem, _⟩ := Json.quotes_object.mp h
          exact absurd hmem List.not_mem_nil
        · exact .inl (quotes_expansion hword hexpansion h)
      · rw [ExecutionUnit.memoryFields] at h
        split at h
        · exact .inr h
        · obtain ⟨_, hmem, _⟩ := Json.quotes_object.mp h
          exact absurd hmem List.not_mem_nil

/-- **The unit that reads the context carries all the inputs.** -/
theorem quotes_of_inputs (hunit : unit.unitType = "context.read")
    {member : ExecutionUnit} (hmember : member ∈ expandUnit recipe revision deliverables unit)
    {word : List Char} (h : Json.Quotes word (compiledInputs revision deliverables)) :
    Json.Quotes word member.toJson := by
  obtain ⟨unitId, own, rfl, -, -⟩ := mem_expandUnit hmember
  simp only [ExecutionUnit.toJson, quotes_append, compiledUnit]
  refine .inr (quotes_given.mpr ⟨_, rfl, .inr ?_⟩)
  rw [compiledInputs, quotes_append] at h
  simp only [quotes_append, ExecutionUnit.memoryFields, hunit, or_true, if_true]
  rcases h with h | h
  · exact .inl (.inl (.inr h))
  · exact .inr h

end

/-! ## What a compiled plan is held to -/

section

variable {revision : MarketingPlanRevision} {carrier : PlanDeliverableCarrier}
  {deliverables : List PlanDeliverable}

/-- **An expansion declares its capabilities and keeps to them.** -/
theorem expandedPlan_capabilities : currentExecutionPlanCapabilityViolation
    (expandedPlan revision carrier deliverables) = none := by
  have hscheduled := scheduled_expandedPlan revision carrier deliverables
  have hgroups : ∀ group ∈ (expandedPlan revision carrier deliverables).dependencyGroups,
      group.unitIds.length = 1 := fun group hgroup => length_of_mem_serialGroups hgroup
  have hcache : (expandedPlan revision carrier deliverables).cachePolicies = none := by
    cases carrier <;> rfl
  have hcapabilities : (expandedPlan revision carrier deliverables).executionCapabilities =
      some CURRENT_COMPILED_EXECUTION_CAPABILITIES := rfl
  have hretry : (expandedPlan revision carrier deliverables).boundedRetry = [] := rfl
  rw [currentExecutionPlanCapabilityViolation, hcapabilities]
  simpa [hscheduled, hcache, hretry] using hgroups

/-- **An expansion passes the checks on its units.** -/
theorem expandedPlan_compatible (hne : expansions deliverables ≠ []) (usedCanonicalRecipe : Bool) :
    assertCompiledCarrierPlanCompatible ⟨carrier, resolveRecipe carrier,
      expandedPlan revision carrier deliverables, usedCanonicalRecipe⟩ = .ok () := by
  have h := resolveRecipe_ordered carrier
  have hfits : ∀ unit ∈ (expandedPlan revision carrier deliverables).units,
      Fits (resolveRecipe carrier) unit := by
    intro unit hunit
    obtain ⟨source, hsource, hmember⟩ := List.mem_flatMap.mp hunit
    exact h.fits_of_mem hsource hmember
  have hpass : ∃ keys, (resolveRecipe carrier).checkUnits 0 []
      (expandedPlan revision carrier deliverables).units = .ok keys ∧ ∀ key, key ∈ keys ↔
        key ∈ [] ∨ ∃ unit ∈ (expandedPlan revision carrier deliverables).units,
          unit.stepKey = key :=
    checkUnits_of_fits hfits
      (fun _ _ _ _ => ⟨Nat.zero_le _, fun hseen => absurd hseen List.not_mem_nil⟩) h.follows
  obtain ⟨keys, hkeys, hmem⟩ := hpass
  have hrequired : (resolveRecipe carrier).stepCatalog.find?
      (fun step => step.required ∧ step.key ∉ keys) = none := by
    refine List.find?_eq_none.mpr fun step hstep hmissing => ?_
    obtain ⟨unit, hunit, hkey⟩ := h.key_of_mem revision hne hstep
    exact (of_decide_eq_true hmissing).2 ((hmem step.key).mpr (.inr ⟨unit, hunit, hkey⟩))
  simp only [assertCompiledCarrierPlanCompatible, guard_eq_ok, bind_eq_ok, not_not]
  refine ⟨h.getLast?_record, keys, hkeys, ?_⟩
  rw [hrequired]
  rfl

/-- The ids and the names of the groups of an expansion spell no word. -/
theorem not_quotes_group {word : String} (hword : word ∈ FORBIDDEN_WORDS) {group : DependencyGroup}
    (hgroup : group ∈ (expandedPlan revision carrier deliverables).dependencyGroups) :
    ¬ Json.Quotes word.toList group.toJson := by
  have hplain := resolveRecipe_plain carrier
  have hnames {text : String} (htext : text ∈ planTexts) (hspells : Json.Spells word.toList text) :
      False := not_spells_planTexts hword htext hspells
  have hgroupId : ¬ Json.Spells word.toList group.groupId := by
    obtain ⟨expanded, hexpanded, hserial⟩ := List.mem_flatMap.mp hgroup
    obtain ⟨source, hsource, rfl⟩ := List.mem_map.mp hexpanded
    obtain ⟨hdash, hquote⟩ := hplain.groups source hsource
    obtain ⟨index, hindex, rfl⟩ := List.mem_mapIdx.mp hserial
    dsimp only
    split
    · exact not_spells_of_dash hword hdash hquote
    · exact not_spells_numbered hword hquote
  have hunitIds : ∀ unitId ∈ group.unitIds, ¬ Json.Spells word.toList unitId := by
    intro unitId hmem
    have hscheduled : unitId ∈ (expandedPlan revision carrier deliverables).scheduled :=
      List.mem_flatMap.mpr ⟨group, hgroup, hmem⟩
    rw [scheduled_expandedPlan] at hscheduled
    obtain ⟨member, hmember, rfl⟩ := List.mem_map.mp hscheduled
    obtain ⟨unit, hunit, hmember⟩ := List.mem_flatMap.mp hmember
    exact not_spells_unitId hplain hword hunit hmember
  intro h
  simp only [DependencyGroup.toJson, Json.quotes_object, List.exists_mem_cons_iff,
    List.not_mem_nil, false_and, exists_false, or_false] at h
  rcases h with (h | h) | h | h
  · exact hnames (by decide) h
  · exact hgroupId h
  · exact hnames (by decide) h
  · obtain ⟨j, hj, h⟩ := Json.quotes_array.mp h
    obtain ⟨unitId, hmem, rfl⟩ := List.mem_map.mp hj
    exact hunitIds unitId hmem h

/-- **A plan spells a word exactly when its inputs do.** -/
theorem quotes_expandedPlan {word : String} (hword : word ∈ FORBIDDEN_WORDS)
    (hne : expansions deliverables ≠ []) :
    Json.Quotes word.toList (expandedPlan revision carrier deliverables).toJson ↔
      Json.Quotes word.toList (compiledInputs revision deliverables) := by
  have hplain := resolveRecipe_plain carrier
  have hordered := resolveRecipe_ordered carrier
  have hnames {text : String} (htext : text ∈ planTexts) (hspells : Json.Spells word.toList text) :
      False := not_spells_planTexts hword htext hspells
  have hcache : (expandedPlan revision carrier deliverables).cachePolicies = none := by
    cases carrier <;> rfl
  have hversion : (expandedPlan revision carrier deliverables).schemaVersion =
      "compiled-execution-plan/v1" := by
    cases carrier <;> rfl
  constructor
  · intro h
    simp only [CompiledExecutionPlan.toJson, quotes_append, quotes_given, hcache, hversion] at h
    rcases h with ((h | h) | h) | h
    · simp only [Json.quotes_object, List.exists_mem_cons_iff, List.not_mem_nil, false_and,
        exists_false, or_false] at h
      rcases h with h | h
      · exact (hnames (by decide) h).elim
      · exact (hnames (by decide) h).elim
    · obtain ⟨j, hj, h⟩ := h
      obtain rfl := Option.some.inj hj
      simp only [CompiledExecutionCapabilities.toJson, Json.quotes_object,
        List.exists_mem_cons_iff, List.not_mem_nil, false_and, exists_false, or_false] at h
      rcases h with h | (h | h) | (h | h) | h | h
      all_goals exact (hnames (by decide) h).elim
    · simp only [Json.quotes_object, List.exists_mem_cons_iff, List.not_mem_nil, false_and,
        exists_false, or_false] at h
      rcases h with (h | h) | (h | h) | h | h
      · exact (hnames (by decide) h).elim
      · obtain ⟨j, hj, h⟩ := Json.quotes_array.mp h
        obtain ⟨member, hmember, rfl⟩ := List.mem_map.mp hj
        obtain ⟨unit, hunit, hmember⟩ := List.mem_flatMap.mp hmember
        exact quotes_of_member hplain hword hunit hmember h
      · exact (hnames (by decide) h).elim
      · obtain ⟨j, hj, h⟩ := Json.quotes_array.mp h
        obtain ⟨group, hgroup, rfl⟩ := List.mem_map.mp hj
        exact absurd h (not_quotes_group hword hgroup)
      · exact (hnames (by decide) h).elim
      · obtain ⟨_, hmem, _⟩ := h
        exact absurd hmem List.not_mem_nil
    · obtain ⟨j, hj, -⟩ := h
      exact nomatch hj
  · intro h
    obtain ⟨first, hfirst, hreads⟩ := (Option.any_eq_true _ _).mp hordered.reads
    have hmembers : expandUnit (resolveRecipe carrier) revision deliverables first ≠ [] :=
      expandUnit_ne_nil hne
    obtain ⟨member, hmember⟩ := List.exists_mem_of_ne_nil _ hmembers
    have hunit : member ∈ (expandedPlan revision carrier deliverables).units :=
      List.mem_flatMap.mpr ⟨first, List.mem_of_head? hfirst, hmember⟩
    have hquotes := quotes_of_inputs (of_decide_eq_true hreads) hmember h
    simp only [CompiledExecutionPlan.toJson, quotes_append]
    refine .inl (.inr (Json.quotes_object.mpr ⟨("units", _), List.mem_cons_self, .inr ?_⟩))
    exact Json.quotes_array.mpr ⟨_, List.mem_map_of_mem hunit, hquotes⟩

end

/-! ## Compiled plans are executed -/

open Execution (Schedules Reached)

/-- **A plan that is executed whole**, whoever runs it and however often. -/
structure CompiledExecutable (carrier : PlanDeliverableCarrier) (deliverables : List PlanDeliverable)
    (plan : CompiledExecutionPlan) : Prop where
  capabilities : currentExecutionPlanCapabilityViolation plan = none
  compatible : ∀ usedCanonicalRecipe, assertCompiledCarrierPlanCompatible
    ⟨carrier, resolveRecipe carrier, plan, usedCanonicalRecipe⟩ = .ok ()
  instances : ∀ step ∈ (resolveRecipe carrier).stepCatalog, step.repeatable = true →
    (plan.units.filter (·.stepKey = step.key)).map (·.instanceOf) =
      (expansions deliverables).map (·.instance)
  single : ∀ step ∈ (resolveRecipe carrier).stepCatalog, step.repeatable = false →
    (plan.units.filter (·.stepKey = step.key)).length = 1
  /-- Every unit once, in the order of the recipe, up to where a handler throws. -/
  runs : ∀ {σ ε : Type} (x : Execution σ ε) (lens : Option ExecutionLens) (s : ExecutorState σ),
    lensToContentCarrier lens = carrier →
      (resolveCompiledCarrierExecution ⟨lens, some plan⟩).RunsWhole plan.units ∧
      Wp (executeCompiledCarrierPlan x ⟨lens, some plan⟩) s
        (fun _ s' => x.RunsUnits s plan.units s')
        (fun thrown s' => ∃ error done, thrown = .primitive error ∧ x.Throws error ∧
          done <+: plan.units ∧ x.RunsUnits s done s')
  /-- A completed handler is not run again by a later attempt. -/
  restarts : ∀ {ε : Type} (executionId : String)
    (selfDurablePrimitives : List CompiledPrimitiveId) (lens : Option ExecutionLens)
    (attempts : List (PrimitiveHandlers ε)) (handlers : PrimitiveHandlers ε),
    (runAll (attempt executionId selfDurablePrimitives ⟨lens, some plan⟩) attempts
      ⟨.empty, [], []⟩).ran.Pairwise fun earlier later => earlier.completed = true →
        (memoryExecution executionId selfDurablePrimitives handlers).selfDurable earlier.unit =
          false → later.unit.unitId ≠ earlier.unit.unitId

section

variable {σ ε : Type} {x : Execution σ ε} {context : CompiledCarrierExecutorContext}
  {s : ExecutorState σ}

/-- **A plan that passes the checks and is scheduled in the order of its units** is run so. -/
theorem Executable.runs
    (hok : assertExecutable (resolveCompiledCarrierExecution context) = .ok ())
    (hscheduled : (resolveCompiledCarrierExecution context).executionPlan.scheduled =
      (resolveCompiledCarrierExecution context).executionPlan.units.map (·.unitId)) :
    Wp (executeCompiledCarrierPlan x context) s
      (fun _ s' =>
        x.RunsUnits s (resolveCompiledCarrierExecution context).executionPlan.units s')
      (fun thrown s' => ∃ error done, thrown = .primitive error ∧ x.Throws error ∧
        done <+: (resolveCompiledCarrierExecution context).executionPlan.units ∧
        x.RunsUnits s done s') := by
  have hpassed := executable_of_ok hok
  have hunits := hpassed.schedules hscheduled
  have hwhole := hpassed.runsWhole (.refl _) hpassed.order
  -- the schedule names one list of units
  have hsame {before after : List String} {units : List ExecutionUnit}
      (hids : (resolveCompiledCarrierExecution context).executionPlan.scheduled = before ++ after)
      (h : Schedules (resolveCompiledCarrierExecution context).executionPlan before units) :
      units <+: (resolveCompiledCarrierExecution context).executionPlan.units :=
    h.isPrefix (hids ▸ hunits)
  have hall {units : List ExecutionUnit}
      (h : Schedules (resolveCompiledCarrierExecution context).executionPlan
        (resolveCompiledCarrierExecution context).executionPlan.scheduled units) :
      units = (resolveCompiledCarrierExecution context).executionPlan.units := by
    refine (hsame (List.append_nil _).symm h).eq_of_length ?_
    rw [← hpassed.count, ← h.map_unitId, List.length_map]
  refine (executeCompiledCarrierPlan_spec x context s).mono (fun output s' hexecuted => ?_)
    fun thrown s' hexecuted => ?_
  · cases hexecuted with
    | returned _ units _ _ h hreached =>
      have hnodup := hpassed.nodup_of_scheduled (List.append_nil _).symm h
      exact hall h ▸ hreached.runsUnits hnodup
  · cases hexecuted with
    | refused message hrefused => exact nomatch hok.symm.trans hrefused
    | unrecorded message units _ _ h hreached hrecord =>
      exact absurd hwhole.record (hall h ▸ hrecord)
    | unknown message unitId before after units _ _ hids h hreached hbound =>
      have hmem : unitId ∈ (resolveCompiledCarrierExecution context).executionPlan.scheduled :=
        hids ▸ List.mem_append_right before List.mem_cons_self
      obtain ⟨bound, hok⟩ := hunits.bound_of_mem hmem
      exact nomatch hok.symm.trans hbound
    | threw error before after units _ _ hids _ h hreached hthrows =>
      exact ⟨error, units, rfl, hthrows, hsame hids h,
        hreached.runsUnits (hpassed.nodup_of_scheduled hids h)⟩

end

section

variable {revision : MarketingPlanRevision} {carrier : PlanDeliverableCarrier}
  {deliverables : List PlanDeliverable}

/-- The inputs spell no word of an interpreter. -/
def inputsClean (revision : MarketingPlanRevision) (deliverables : List PlanDeliverable) : Bool :=
  FORBIDDEN_WORDS.all fun word => !(compiledInputs revision deliverables).includesQuoted word

theorem assertNoGrammarInterpreter_iff (hne : expansions deliverables ≠ []) :
    assertNoGrammarInterpreter (expandedPlan revision carrier deliverables) = .ok () ↔
      inputsClean revision deliverables = true := by
  have hword : ∀ word ∈ FORBIDDEN_WORDS,
      (expandedPlan revision carrier deliverables).toJson.includesQuoted word =
        (compiledInputs revision deliverables).includesQuoted word := by
    intro word hword
    rw [Bool.eq_iff_iff, includesQuoted_iff hword, includesQuoted_iff hword,
      quotes_expandedPlan hword hne]
  have hfind : FORBIDDEN_WORDS.find?
      (expandedPlan revision carrier deliverables).toJson.includesQuoted = none ↔
        inputsClean revision deliverables = true := by
    rw [List.find?_eq_none, inputsClean, List.all_eq_true]
    refine forall₂_congr fun word hmem => ?_
    rw [hword word hmem, Bool.not_eq_true, Bool.not_eq_true']
  rw [← hfind, assertNoGrammarInterpreter]
  split
  · next heq => rw [heq]; exact iff_of_false (fun h => nomatch h) fun h => nomatch h
  · next heq => exact iff_of_true rfl heq

/-- An expansion is run as it is frozen. -/
theorem resolve_expandedPlan {lens : Option ExecutionLens} (hlens : lensToContentCarrier lens = carrier) :
    resolveCompiledCarrierExecution ⟨lens, some (expandedPlan revision carrier deliverables)⟩ =
      ⟨carrier, resolveRecipe carrier, expandedPlan revision carrier deliverables, false⟩ := by
  have hrecord : (expandedPlan revision carrier deliverables).units.getLast?.bind (·.primitive) =
      some .record := (resolveRecipe_ordered carrier).getLast?_record
  have hne : (expandedPlan revision carrier deliverables).units ≠ [] := by
    intro hnil
    rw [hnil] at hrecord
    exact nomatch hrecord
  have hversion : (expandedPlan revision carrier deliverables).schemaVersion =
      COMPILED_EXECUTION_PLAN_SCHEMA_VERSION := by
    cases carrier <;> rfl
  have husable : (expandedPlan revision carrier deliverables).usable = true :=
    decide_eq_true ⟨hversion, hne⟩
  rw [resolveCompiledCarrierExecution, hlens]
  simp [Option.filter, husable]

/-- **An expansion passes every check** when its inputs are clean. -/
theorem assertExecutable_iff (hne : expansions deliverables ≠ []) {usedCanonicalRecipe : Bool} :
    assertExecutable ⟨carrier, resolveRecipe carrier, expandedPlan revision carrier deliverables,
      usedCanonicalRecipe⟩ = .ok () ↔ inputsClean revision deliverables = true := by
  have hgrammar : assertNoGrammarInterpreter (expandedPlan revision carrier deliverables) = .ok () ↔
      inputsClean revision deliverables = true := assertNoGrammarInterpreter_iff hne
  have hcapabilities : assertCapabilities (expandedPlan revision carrier deliverables) = .ok () := by
    have hsome : (expandedPlan revision carrier deliverables).executionCapabilities =
        some CURRENT_COMPILED_EXECUTION_CAPABILITIES := rfl
    rw [assertCapabilities, hsome, Option.bind_some, expandedPlan_capabilities]
    rfl
  have hscheduled : assertScheduledOnce (expandedPlan revision carrier deliverables) = .ok () := by
    have hnodup : ((expandedPlan revision carrier deliverables).units.map (·.unitId)).Nodup :=
      (resolveRecipe_ordered carrier).nodup
    rw [assertScheduledOnce, last_guard_eq_ok, scheduled_expandedPlan, List.length_map]
    rintro (hlength | hnot)
    · exact hlength rfl
    · exact hnot hnodup
  rw [← hgrammar, assertExecutable, hcapabilities, expandedPlan_compatible hne, hscheduled]
  simp only [bind_eq_ok]
  exact ⟨by rintro ⟨_, _, _, h, _⟩; exact h, fun h => ⟨(), trivial, (), h, (), trivial, trivial⟩⟩

/-- **A plan is executed whole exactly when its inputs are clean.** -/
theorem compiledExecutable_expandedPlan (hne : expansions deliverables ≠ []) :
    CompiledExecutable carrier deliverables (expandedPlan revision carrier deliverables) ↔
      inputsClean revision deliverables = true := by
  have hordered := resolveRecipe_ordered carrier
  constructor
  · intro h
    obtain ⟨lens, hlens⟩ : ∃ lens, lensToContentCarrier lens = carrier := by
      cases carrier with
      | copy => exact ⟨none, rfl⟩
      | note => exact ⟨some .image_text_note, rfl⟩
      | media => exact ⟨some .image, rfl⟩
    -- handlers that never throw run a plan that is not refused
    let x : Execution Unit Unit := ⟨fun _ _ _ _ => .ok .null, immediatePrimitiveEffectStore, "", []⟩
    have hok : assertExecutable (resolveCompiledCarrierExecution
        ⟨lens, some (expandedPlan revision carrier deliverables)⟩) = .ok () := by
      have hspec := executeCompiledCarrierPlan_spec x
        ⟨lens, some (expandedPlan revision carrier deliverables)⟩ ⟨(), [], []⟩
      refine wp_final (I := fun _ => _).mp (((h.runs x lens ⟨(), [], []⟩ hlens).2.and hspec).mono
        (fun output s' h => ?_) fun thrown s' h => ?_)
      · cases h.2 with
        | returned _ _ _ hok => exact hok
      · obtain ⟨⟨error, done, rfl, -⟩, hexecuted⟩ := h
        cases hexecuted with
        | threw _ _ _ _ _ hok => exact hok
    rw [resolve_expandedPlan hlens] at hok
    exact (assertExecutable_iff hne).mp hok
  · intro hclean
    refine ⟨expandedPlan_capabilities, expandedPlan_compatible hne,
      fun step hstep hrepeatable => hordered.instances hne hstep hrepeatable,
      fun step hstep hsingle => hordered.single hstep hsingle, fun {σ ε} x lens s hlens => ?_,
      fun {ε} executionId selfDurablePrimitives lens attempts handlers => ?_⟩
    · have hresolve : resolveCompiledCarrierExecution
          ⟨lens, some (expandedPlan revision carrier deliverables)⟩ =
            ⟨carrier, resolveRecipe carrier, expandedPlan revision carrier deliverables, false⟩ :=
        resolve_expandedPlan hlens
      have hok : assertExecutable (resolveCompiledCarrierExecution
          ⟨lens, some (expandedPlan revision carrier deliverables)⟩) = .ok () := by
        rw [hresolve]
        exact (assertExecutable_iff hne).mpr hclean
      have hruns := Executable.runs (x := x) (s := s) hok (by
        rw [hresolve]
        exact scheduled_expandedPlan revision carrier deliverables)
      have hwhole := (executable_of_ok hok).runsWhole (.refl _) (executable_of_ok hok).order
      rw [hresolve] at hruns hwhole
      exact ⟨hresolve ▸ hwhole, hruns⟩
    · exact (RanOnceUnder.attempts attempts handlers).once

/-! ### What is built -/

/-- **A stored plan**: the one a build of the revision puts first. -/
def StoredPrimary (revision : MarketingPlanRevision) (deliverables : Option (List PlanDeliverable))
    (plan : CompiledExecutionPlan) : Prop :=
  ∃ first rest, buildCompiledCarrierExecutionPlans revision deliverables = .ok (first :: rest) ∧
    first.executionPlan = plan

theorem parseCompiledPlan_eq_ok {plan parsed : CompiledExecutionPlan}
    (h : parseCompiledPlan plan = .ok parsed) : parsed = plan := by
  rw [parseCompiledPlan] at h
  split at h
  · exact nomatch h
  · split at h
    · exact nomatch h
    · exact (pure_eq_ok.mp h).symm

/-- The plan of a carrier at a place, and whether the stored plan takes it. -/
theorem executionPlan_of_mem {deliverables : Option (List PlanDeliverable)}
    {primaryExecutionPlan : Option CompiledExecutionPlan}
    {plans : List CompiledCarrierExecutionPlan} {compiled : CompiledCarrierExecutionPlan}
    (h : buildCompiledCarrierExecutionPlans revision deliverables primaryExecutionPlan = .ok plans)
    (hmem : compiled ∈ plans) :
    ∃ index, (((deliverables.getD revision.deliverables).map (·.kind)).eraseDups)[index]? =
        some compiled.carrier ∧
      compiled.executionPlan = if index = 0 then primaryExecutionPlan.getD
          (expandedPlan revision compiled.carrier
            ((deliverables.getD revision.deliverables).filter (·.kind = compiled.carrier)))
        else expandedPlan revision compiled.carrier
          ((deliverables.getD revision.deliverables).filter (·.kind = compiled.carrier)) := by
  obtain ⟨⟨carrier, index⟩, hplace, hbuilt⟩ := mem_of_mapM_eq_ok h compiled hmem
  simp only [bind_eq_ok, pure_eq_ok] at hbuilt
  obtain ⟨plan, hplan, rfl⟩ := hbuilt
  obtain rfl := parseCompiledPlan_eq_ok hplan
  exact ⟨index, List.mem_zipIdx_iff_getElem?.mp hplace, rfl⟩

/-- A stored plan is the expansion of the first carrier. -/
theorem StoredPrimary.eq_expandedPlan {deliverables : Option (List PlanDeliverable)}
    {plan : CompiledExecutionPlan} (h : StoredPrimary revision deliverables plan)
    (hfirst : (((deliverables.getD revision.deliverables).map (·.kind)).eraseDups)[0]? =
      some carrier) :
    plan = expandedPlan revision carrier
      ((deliverables.getD revision.deliverables).filter (·.kind = carrier)) := by
  obtain ⟨first, rest, hbuilt, rfl⟩ := h
  have hplaces := list_mapM_eq_ok.mp hbuilt
  cases hcarriers : ((deliverables.getD revision.deliverables).map (·.kind)).eraseDups with
  | nil => rw [hcarriers] at hfirst; exact nomatch hfirst
  | cons other others =>
    rw [hcarriers] at hfirst hplaces
    obtain rfl : other = carrier := Option.some.inj hfirst
    cases hplaces with
    | cons hbuilt _ =>
      simp only [bind_eq_ok, pure_eq_ok] at hbuilt
      obtain ⟨plan, hplan, rfl⟩ := hbuilt
      exact parseCompiledPlan_eq_ok hplan

/-- **Every compiled plan can be executed**, exactly when its inputs spell no word of an
interpreter. -/
theorem compiledExecutable_iff (revision : MarketingPlanRevision)
    (deliverables : Option (List PlanDeliverable))
    (primaryExecutionPlan : Option CompiledExecutionPlan)
    (hprimary : ∀ plan ∈ primaryExecutionPlan, StoredPrimary revision deliverables plan)
    (plans : List CompiledCarrierExecutionPlan)
    (h : buildCompiledCarrierExecutionPlans revision deliverables primaryExecutionPlan =
      .ok plans) :
    ∀ compiled ∈ plans, CompiledExecutable compiled.carrier
        ((deliverables.getD revision.deliverables).filter (·.kind = compiled.carrier))
        compiled.executionPlan ↔
      inputsClean revision ((deliverables.getD revision.deliverables).filter
        (·.kind = compiled.carrier)) = true := by
  intro compiled hmem
  obtain ⟨index, hplace, hplan⟩ := executionPlan_of_mem h hmem
  have hexpanded : compiled.executionPlan = expandedPlan revision compiled.carrier
      ((deliverables.getD revision.deliverables).filter (·.kind = compiled.carrier)) := by
    rw [hplan]
    split
    · next hzero =>
      cases primaryExecutionPlan with
      | none => rfl
      | some plan => exact (hprimary plan rfl).eq_expandedPlan (hzero ▸ hplace)
    · rfl
  rw [hexpanded]
  refine compiledExecutable_expandedPlan ?_
  -- the carrier is that of a deliverable, of which there is at least one unit
  have hcarrier := List.mem_eraseDups.mp (List.mem_of_getElem? hplace)
  obtain ⟨deliverable, hdeliverable, hkind⟩ := List.mem_map.mp hcarrier
  refine List.ne_nil_of_mem (a := ⟨deliverable.deliverableId, 0⟩) (List.mem_flatMap.mpr
    ⟨deliverable, List.mem_filter.mpr ⟨hdeliverable, decide_eq_true hkind⟩, ?_⟩)
  exact List.mem_map.mpr ⟨0, List.mem_range.mpr deliverable.quantity_pos, rfl⟩

end

/-- A note with a purpose of its own. -/
def noteRevision (purpose : String) : MarketingPlanRevision where
  planId := "plan-1"
  revision := 1
  deliverables := [⟨"d-1", .note, none, 2, some purpose, by decide⟩]
  quoteRef := ⟨"quote-1", .number 1⟩

theorem compiledExecutable_noteRevision : ∃ compiled,
    buildCompiledCarrierExecutionPlans (noteRevision "launch") = .ok [compiled] ∧
      CompiledExecutable .note (noteRevision "launch").deliverables compiled.executionPlan :=
  ⟨_, rfl, (compiledExecutable_iff (noteRevision "launch") none none nofun _ rfl _
    List.mem_cons_self).mpr (by decide +kernel)⟩

/-- **A purpose that is a word of an interpreter** compiles to a plan that the executor refuses. -/
theorem not_compiledExecutable : ¬ ∀ (revision : MarketingPlanRevision)
    (plans : List CompiledCarrierExecutionPlan),
    buildCompiledCarrierExecutionPlans revision = .ok plans → ∀ compiled ∈ plans,
      CompiledExecutable compiled.carrier
        (revision.deliverables.filter (·.kind = compiled.carrier)) compiled.executionPlan := by
  intro h
  have hnote := h (noteRevision "dynamicExecutable") [⟨.note, _⟩] rfl _ List.mem_cons_self
  have hne : expansions ((noteRevision "dynamicExecutable").deliverables.filter
      (·.kind = .note)) ≠ [] := List.cons_ne_nil _ _
  have hclean := (compiledExecutable_expandedPlan hne).mp hnote
  exact absurd hclean (by decide +kernel)

end MeiyeAgent
