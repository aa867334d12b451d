import MeiyeAgent.AgentSession.SteeringService

/-!
# AgentSession/SteeringQuotes — when the charge a steering answer announces is the one billed

Progress rows have distinct, trimmed unit ids (`SteeringUnits`), so an id finds its own unit and
the units steered are the same whether they are read as units or as ids (`Scope`).  Announced is
every unit of the scope that is not `pending`, billed is every completed one where the answer is a
launch: **`quoteIsBill_iff`** says the two agree exactly on the scopes in which nothing is running
or failed, and nothing but pending while the gate is off.
-/

namespace MeiyeAgent

/-- **The progress of the units of a task**: one row a unit, its id as the schema leaves it. -/
structure SteeringUnits where
  list : List SteeringUnitProgress
  distinct : (list.map (·.unitId)).Nodup
  trimmed : ∀ u ∈ list, parseTrimmed u.unitId = some u.unitId

/-- **Units picked out of the progress**, each once. -/
structure Scope (units : SteeringUnits) (picked : List SteeringUnitProgress) : Prop where
  mem : ∀ u ∈ picked, u ∈ units.list
  distinct : (picked.map (·.unitId)).Nodup

namespace SteeringUnits

variable {units : SteeringUnits}

/-- Two rows of one id are one row. -/
theorem eq_of_unitId {u v : SteeringUnitProgress} (hu : u ∈ units.list) (hv : v ∈ units.list)
    (h : u.unitId = v.unitId) : u = v := List.inj_on_of_nodup_map units.distinct hu hv h

/-- An id finds its unit. -/
theorem find_unit {u : SteeringUnitProgress} (hu : u ∈ units.list) :
    units.list.find? (·.unitId == u.unitId) = some u := by
  have hsome : (units.list.find? (·.unitId == u.unitId)).isSome :=
    List.find?_isSome.mpr ⟨u, hu, beq_self_eq_true _⟩
  obtain ⟨v, hv⟩ := Option.isSome_iff_exists.mp hsome
  have hid : v.unitId = u.unitId := by simpa using List.find?_some hv
  rw [hv, eq_of_unitId (List.mem_of_find?_eq_some hv) hu hid]

/-- Ids of the progress are parsed to themselves. -/
theorem mapM_asUnitId : ∀ {l : List SteeringUnitProgress}, (∀ u ∈ l, u ∈ units.list) →
    (l.mapM fun u => asUnitId u.unitId) = some (l.map (·.unitId))
  | [], _ => rfl
  | u :: l, h => by
    have hu : asUnitId u.unitId = some u.unitId := units.trimmed u (h u List.mem_cons_self)
    rw [List.mapM_cons, hu, mapM_asUnitId fun v hv => h v (List.mem_cons_of_mem u hv)]
    rfl

theorem scope_self : Scope units units.list := ⟨fun _ => id, units.distinct⟩

theorem scope_filter (p : SteeringUnitProgress → Bool) : Scope units (units.list.filter p) :=
  ⟨fun _ hu => (List.mem_filter.mp hu).1, units.distinct.sublist (List.filter_sublist.map _)⟩

end SteeringUnits

/-! ## The units hit -/

section Hits

variable {units : SteeringUnits} {hits : SteeringHits}

/-- The hits are units under their ids. -/
def SteeringHits.OfUnits (units : SteeringUnits) (hits : SteeringHits) : Prop :=
  ∀ e ∈ hits.entries, e.2 ∈ units.list ∧ e.2.unitId = e.1

theorem SteeringHits.OfUnits.foldl {l : List SteeringUnitProgress} (hl : ∀ u ∈ l, u ∈ units.list) :
    ∀ {hits : SteeringHits}, hits.OfUnits units → (l.foldl SteeringHits.hit hits).OfUnits units := by
  induction l with
  | nil => exact fun h => h
  | cons u l ih =>
    intro hits h
    refine ih (fun v hv => hl v (List.mem_cons_of_mem u hv)) fun e he => ?_
    rcases OrderedMap.mem_set.mp he with rfl | ⟨he, -⟩
    · exact ⟨hl u List.mem_cons_self, rfl⟩
    · exact h e he

theorem SteeringHits.OfUnits.scope (h : hits.OfUnits units) : Scope units hits.values := by
  constructor
  · intro u hu
    obtain ⟨e, he, rfl⟩ := List.mem_map.mp hu
    exact (h e he).1
  · have hkeys : hits.values.map (·.unitId) = hits.entries.map Prod.fst := by
      rw [OrderedMap.values, List.map_map]
      exact List.map_congr_left fun e he => (h e he).2
    exact hkeys ▸ hits.nodup

/-- Units of distinct ids are hit once each, in their order. -/
theorem values_foldl_hit {l : List SteeringUnitProgress} (h : (l.map (·.unitId)).Nodup) :
    (l.foldl SteeringHits.hit .empty).values = l := by
  have hfold : l.foldl SteeringHits.hit .empty =
      OrderedMap.empty.setAll (l.map fun u => (u.unitId, u)) := by
    rw [OrderedMap.setAll, List.foldl_map]
    rfl
  have hnodup : ((l.map fun u => (u.unitId, u)).map Prod.fst).Nodup := by
    rw [List.map_map]
    exact h
  rw [OrderedMap.values, hfold, OrderedMap.entries_setAll_empty hnodup, List.map_map]
  exact List.map_id l

variable {u : SteeringUnitProgress}

theorem findCoverUnit_mem (h : findCoverUnit units.list = some u) : u ∈ units.list := by
  rcases Option.or_eq_some_iff.mp h with h | ⟨-, h⟩
  · exact List.mem_of_find?_eq_some h
  · exact List.mem_of_find?_eq_some h

theorem unitOfPage_mem {ordinal : Nat} (h : unitOfPage units.list ordinal = some u) :
    u ∈ units.list := by
  rcases Option.or_eq_some_iff.mp h with h | ⟨-, h⟩
  · rcases OrderedMap.of_get?_setAll h with hmem | hnone
    · obtain ⟨v, hv, hpage⟩ := List.mem_filterMap.mp hmem
      obtain ⟨index, -, heq⟩ := Option.map_eq_some_iff.mp hpage
      exact (Prod.mk.inj heq).2 ▸ hv
    · exact nomatch hnone
  · exact List.mem_of_find?_eq_some h

theorem pointedUnits_mem {instruction : String} (h : u ∈ pointedUnits instruction units.list) :
    u ∈ units.list := by
  rcases List.mem_append.mp h with hu | hu
  · split at hu
    · exact findCoverUnit_mem (Option.mem_toList.mp hu)
    · exact absurd hu List.not_mem_nil
  · obtain ⟨raw, -, hpage⟩ := List.mem_filterMap.mp hu
    obtain ⟨ordinal, -, hunit⟩ := Option.bind_eq_some_iff.mp hpage
    exact unitOfPage_mem hunit

/-- **What the words name are units**, each once. -/
theorem scope_inferAffected (instruction : String) :
    Scope units (inferAffectedFromInstruction instruction units.list) := by
  have hpointed : ∀ u ∈ pointedUnits instruction units.list, u ∈ units.list :=
    fun _ => pointedUnits_mem
  have hempty : SteeringHits.OfUnits units .empty := fun _ he => absurd he List.not_mem_nil
  rw [inferAffectedFromInstruction]
  split
  · exact ((hempty.foldl hpointed).foldl fun u hu => (List.mem_filter.mp hu).1).scope
  · exact (hempty.foldl hpointed).scope

/-- **The units steered** are units of the progress, each once. -/
theorem scope_steered (instruction : String) (signals : SteeringClassifySignals) :
    Scope units (steered instruction units.list signals) := by
  have hnamed : Scope units (namedUnits instruction units.list signals) := by
    rw [namedUnits]
    split
    · exact SteeringUnits.scope_filter _
    · exact scope_inferAffected instruction
  rw [steered]
  split
  · exact SteeringUnits.scope_self
  · exact hnamed

end Hits

/-! ## Scopes -/

namespace Scope

variable {units : SteeringUnits} {scope : List SteeringUnitProgress}

/-- The units that stay, beside those picked. -/
def rest (units : SteeringUnits) (scope : List SteeringUnitProgress) : List SteeringUnitProgress :=
  units.list.filter fun u => !scope.any (·.unitId == u.unitId)

theorem rest_mem : ∀ u ∈ rest units scope, u ∈ units.list :=
  fun _ hu => (List.mem_filter.mp hu).1

theorem any_unitId (h : Scope units scope) {u : SteeringUnitProgress} (hu : u ∈ units.list) :
    scope.any (·.unitId == u.unitId) = true ↔ u ∈ scope := by
  rw [List.any_eq_true]
  constructor
  · rintro ⟨v, hv, hid⟩
    exact SteeringUnits.eq_of_unitId (h.mem v hv) hu (beq_iff_eq.mp hid) ▸ hv
  · exact fun hmem => ⟨u, hmem, beq_self_eq_true _⟩

/-- **The units picked and those that stay are the units**, each once. -/
theorem perm (h : Scope units scope) : (scope ++ rest units scope).Perm units.list := by
  have hnodup : units.list.Nodup := .of_map _ units.distinct
  have hscope : scope.Perm (units.list.filter fun u => scope.any (·.unitId == u.unitId)) := by
    refine (List.perm_ext_iff_of_nodup (.of_map _ h.distinct) (hnodup.filter _)).mpr fun u => ?_
    rw [List.mem_filter]
    exact ⟨fun hu => ⟨h.mem u hu, (h.any_unitId (h.mem u hu)).mpr hu⟩,
      fun hu => (h.any_unitId hu.1).mp hu.2⟩
  exact (hscope.append_right _).trans (List.filter_append_perm _ units.list)

theorem of_perm (h : Scope units scope) {scope' : List SteeringUnitProgress}
    (hperm : scope'.Perm scope) : Scope units scope' :=
  ⟨fun u hu => h.mem u (hperm.mem_iff.mp hu), (hperm.map _).nodup_iff.mpr h.distinct⟩

/-- Completed units first, the others after them. -/
theorem perm_completed (scope : List SteeringUnitProgress) :
    (scope.filter (·.status = .completed) ++ scope.filter (·.status ≠ .completed)).Perm scope := by
  have hperm := List.filter_append_perm (fun u => decide (u.status = .completed)) scope
  simpa only [decide_not] using hperm

/-- **The ids announced are the units that are not pending.** -/
theorem invoked (h : Scope units scope) :
    (scope.map (·.unitId)).filter (steeringUnitAlreadyInvoked units.list) =
      (scope.filter (·.status ≠ .pending)).map (·.unitId) := by
  rw [List.filter_map]
  refine congrArg (List.map _) (List.filter_congr fun u hu => ?_)
  rw [Function.comp_apply, steeringUnitAlreadyInvoked, SteeringUnits.find_unit (h.mem u hu)]
  rfl

end Scope

/-! ## What the classifier answers -/

section Classified

variable {units : SteeringUnits} {instruction : String} {hint : Option SteeringQueueMode}
  {signals : SteeringClassifySignals} {r : SteeringClassifyResult}

/-- The instruction has units to steer. -/
def SteersUnits (instruction : String) (units : List SteeringUnitProgress)
    (signals : SteeringClassifySignals) : Prop :=
  isUnsafeInstruction instruction signals = false ∧
    isPlanChangeInstruction instruction signals = false ∧ steered instruction units signals ≠ []

/-- **What an instruction is**, with the units it steers. -/
inductive Classified (units : SteeringUnits) (scope : List SteeringUnitProgress) :
    SteeringClassifyResult → Prop
  | derived (requiresRequote : Bool) (queueMode : SteeringQueueMode) (impactSummary : String)
      (hcompleted : ∃ u ∈ scope, u.status = .completed) :
      Classified units scope ⟨.derivedRevision ((scope.filter (·.status = .completed)).map (·.unitId))
        requiresRequote, (scope.filter (·.status = .completed) ++
          scope.filter (·.status ≠ .completed)).map (·.unitId), queueMode, impactSummary,
        (Scope.rest units scope).map (·.unitId)⟩
  | patch (queueMode : SteeringQueueMode) (impactSummary : String)
      (hfuture : ∀ u ∈ scope, u.status ≠ .completed) :
      Classified units scope ⟨.futureStepPatch (scope.map (·.unitId)), scope.map (·.unitId),
        queueMode, impactSummary, (Scope.rest units scope).map (·.unitId)⟩

variable {queueMode : SteeringQueueMode}

theorem refusedSteering_some {classification : SteeringClassification}
    (h : refusedSteering units.list queueMode classification = some r) :
    r.classification = classification ∧ r.affectedUnitIds = [] := by
  rw [refusedSteering, SteeringUnits.mapM_asUnitId fun _ => id] at h
  obtain rfl := Option.some.inj h
  exact ⟨rfl, rfl⟩

theorem derivedSteering_some {scope : List SteeringUnitProgress} (hscope : Scope units scope)
    {wholeNote changesCost : Bool} (hcompleted : ∃ u ∈ scope, u.status = .completed)
    (h : derivedSteering scope (Scope.rest units scope) queueMode wholeNote changesCost = some r) :
    Classified units scope r := by
  have hlist := hscope.of_perm (Scope.perm_completed scope)
  have hvalues := values_foldl_hit hlist.distinct
  have hmapM := SteeringUnits.mapM_asUnitId hlist.mem
  simp only [derivedSteering, hvalues] at h
  rw [SteeringUnits.mapM_asUnitId fun u hu => hscope.mem u (List.mem_filter.mp hu).1, hmapM,
    SteeringUnits.mapM_asUnitId Scope.rest_mem] at h
  obtain rfl := Option.some.inj h
  exact .derived _ _ _ hcompleted

theorem patchSteering_some {scope : List SteeringUnitProgress} (hscope : Scope units scope)
    {wholeNote : Bool} (hfuture : ∀ u ∈ scope, u.status ≠ .completed)
    (h : patchSteering scope (Scope.rest units scope) queueMode wholeNote = some r) :
    Classified units scope r := by
  have hself : scope.filter (·.status ≠ .completed) = scope :=
    List.filter_eq_self.mpr fun u hu => decide_eq_true (hfuture u hu)
  simp only [patchSteering, hself] at h
  rw [SteeringUnits.mapM_asUnitId hscope.mem,
    SteeringUnits.mapM_asUnitId Scope.rest_mem] at h
  obtain rfl := Option.some.inj h
  exact .patch _ _ hfuture

/-- **An instruction without units to steer** is refused or sent back to the plan; every other is a
patch or a derived revision of the units it steers. -/
theorem classified_of_some
    (h : classifySteeringInstruction ⟨instruction, units.list, hint, signals⟩ = some r) :
    (¬ SteersUnits (Text.trim instruction) units.list signals ∧ r.affectedUnitIds = [] ∧
      (r.classification.isUnsafe = true ∨ r.classification.isPlanChange = true)) ∨
    (SteersUnits (Text.trim instruction) units.list signals ∧
      Classified units (steered (Text.trim instruction) units.list signals) r) := by
  have hscope : Scope units (steered (Text.trim instruction) units.list signals) :=
    scope_steered (Text.trim instruction) signals
  simp only [classifySteeringInstruction] at h
  split at h
  · exact nomatch h
  split at h
  · next hflagged =>
    obtain ⟨hclass, hids⟩ := refusedSteering_some h
    exact .inl ⟨fun hs => (nomatch hs.1.symm.trans hflagged), hids, .inl (by rw [hclass]; rfl)⟩
  split at h
  · next hplan =>
    obtain ⟨hclass, hids⟩ := refusedSteering_some h
    exact .inl ⟨fun hs => (nomatch hs.2.1.symm.trans hplan), hids, .inr (by rw [hclass]; rfl)⟩
  split at h
  · next hnone =>
    obtain ⟨hclass, hids⟩ := refusedSteering_some h
    exact .inl ⟨fun hs => hs.2.2 hnone, hids, .inl (by rw [hclass]; rfl)⟩
  next hcareful hplan hsome =>
  refine .inr ⟨⟨Bool.eq_false_of_not_eq_true hcareful, Bool.eq_false_of_not_eq_true hplan,
    hsome⟩, ?_⟩
  split at h
  · next hany => exact derivedSteering_some hscope (by simpa using hany) h
  · next hany => exact patchSteering_some hscope (by simpa using hany) h

end Classified

/-! ## The stored command -/

section Submitted

variable {units : SteeringUnits} {consumers : SteeringActionConsumers} {gate : MakeSteeringGate}
  {preview : Nat → Option Nat} {input : SubmitSteeringInput} {result : SubmitSteeringResult}

/-- Identifiers that are parsed to themselves are left by the command's schema. -/
theorem parseIds_self {most : Nat} {ids ids' : List String}
    (htrimmed : ids.mapM parseTrimmed = some ids) (h : parseIds most ids = some ids') :
    ids' = ids := by
  rw [parseIds, htrimmed] at h
  split at h
  · exact (Option.some.inj h).symm
  · exact nomatch h

/-- The kind of a classification stands in the stored command. -/
theorem SteeringClassification.parse_kind {c parsed : SteeringClassification}
    (h : c.parse = some parsed) : parsed.isDerived = c.isDerived ∧ parsed.isUnsafe = c.isUnsafe ∧
      parsed.isPlanChange = c.isPlanChange := by
  cases c with
  | futureStepPatch ids =>
    obtain ⟨ids', -, h⟩ := Option.bind_eq_some_iff.mp h
    split at h
    · exact nomatch h
    · obtain rfl := Option.some.inj h
      exact ⟨rfl, rfl, rfl⟩
  | derivedRevision ids requote =>
    obtain ⟨ids', -, h⟩ := Option.bind_eq_some_iff.mp h
    obtain rfl := Option.some.inj h
    exact ⟨rfl, rfl, rfl⟩
  | planChange reason =>
    obtain ⟨reason', -, h⟩ := Option.bind_eq_some_iff.mp h
    obtain rfl := Option.some.inj h
    exact ⟨rfl, rfl, rfl⟩
  | unsafeOrConflicting reason =>
    obtain ⟨reason', -, h⟩ := Option.bind_eq_some_iff.mp h
    obtain rfl := Option.some.inj h
    exact ⟨rfl, rfl, rfl⟩

theorem SteeringClassification.parse_derived {ids : List String} {requote : Bool}
    {parsed : SteeringClassification} (hids : ids.mapM parseTrimmed = some ids)
    (h : (derivedRevision ids requote).parse = some parsed) :
    parsed = derivedRevision ids requote := by
  obtain ⟨ids', hparse, hparsed⟩ := Option.bind_eq_some_iff.mp h
  rw [parseIds_self hids hparse] at hparsed
  exact (Option.some.inj hparsed).symm

theorem MakeSteeringCommand.parse_classification {c parsed : MakeSteeringCommand}
    (h : c.parse = some parsed) : c.classification.parse = some parsed.classification := by
  rw [MakeSteeringCommand.parse] at h
  iterate 7 obtain ⟨_, -, h⟩ := Option.bind_eq_some_iff.mp h
  obtain ⟨classification, hclass, h⟩ := Option.bind_eq_some_iff.mp h
  iterate 2 obtain ⟨_, -, h⟩ := Option.bind_eq_some_iff.mp h
  split at h
  · exact nomatch h
  · obtain rfl := Option.some.inj h
    exact hclass

/-- A parsed command names a work if the command does. -/
theorem MakeSteeringCommand.parse_workId {c parsed : MakeSteeringCommand}
    (h : c.parse = some parsed) : parsed.workId.isSome = c.workId.isSome := by
  rw [MakeSteeringCommand.parse] at h
  iterate 3 obtain ⟨_, -, h⟩ := Option.bind_eq_some_iff.mp h
  obtain ⟨workId, hworkId, h⟩ := Option.bind_eq_some_iff.mp h
  have hsame : workId.isSome = c.workId.isSome := by
    cases hgiven : c.workId with
    | none =>
      rw [hgiven] at hworkId
      exact congrArg Option.isSome (Option.some.inj hworkId).symm
    | some text =>
      rw [hgiven, Option.mapM_some] at hworkId
      obtain ⟨text', -, rfl⟩ := Option.map_eq_some_iff.mp hworkId
      rfl
  iterate 6 obtain ⟨_, -, h⟩ := Option.bind_eq_some_iff.mp h
  split at h
  · cases h
  · obtain rfl := Option.some.inj h
    exact hsame

/-- Does the submission name the work it steers? -/
def SubmitSteeringInput.namesWork (input : SubmitSteeringInput) : Bool :=
  (input.workId.filter (· ≠ "")).isSome

/-- **What a submission has come through** when it answers. -/
structure Submitted (gate : MakeSteeringGate) (input : SubmitSteeringInput)
    (result : SubmitSteeringResult) (c : SteeringClassifyResult)
    (parsed : SteeringClassification) : Prop where
  classified : classifySteeringInstruction
    ⟨Text.trim input.instruction, input.units, input.queueModeHint, input.signals⟩ = some c
  parse : c.classification.parse = some parsed
  stored : result.stored.command.classification = parsed
  work : result.stored.command.workId.isSome = input.namesWork
  status : result.stored.applicationStatus = if gate.enabled then
    resolveApplicationStatus c.classification c.queueMode input.applyImmediately else .disabled
  affected : result.affectedUnitIds = c.affectedUnitIds
  preserved : result.preservedUnitIds = c.preservedUnitIds
  invoked : result.impact.alreadyInvokedUnitIds =
    c.affectedUnitIds.filter (steeringUnitAlreadyInvoked input.units)
  rebilled : result.impact.rebilled = (!c.classification.isPlanChange &&
    !c.classification.isUnsafe && (c.classification.isDerived ||
      decide (result.impact.alreadyInvokedUnitIds ≠ [])))

theorem orRefused_ok {α : Type} {o : Option α} {a : α} (h : orRefused o = .ok a) : o = some a := by
  cases o with
  | none => exact nomatch h
  | some b => exact congrArg some (Except.ok.inj h)

theorem checkSubmission_ok {instruction : String} (h : checkSubmission input = .ok instruction) :
    instruction = Text.trim input.instruction := by
  rw [checkSubmission] at h
  split at h
  · exact nomatch h
  split at h
  · exact nomatch h
  · exact (Except.ok.inj h).symm

theorem submitted_of_ok (h : submit consumers gate preview input = .ok result) :
    ∃ classified parsed, Submitted gate input result classified parsed := by
  rw [submit] at h
  obtain ⟨instruction, hcheck, hclassify⟩ := Effect.bind_eq_ok.mp h
  obtain ⟨classified, hclassified, hbuild⟩ := Effect.bind_eq_ok.mp hclassify
  obtain ⟨command, hcommand, hlaunched⟩ := Effect.bind_eq_ok.mp hbuild
  obtain ⟨⟨⟩, -, hresult⟩ := Effect.bind_eq_ok.mp hlaunched
  obtain rfl := checkSubmission_ok hcheck
  have hparse := MakeSteeringCommand.parse_classification (orRefused_ok hcommand)
  have hwork := MakeSteeringCommand.parse_workId (orRefused_ok hcommand)
  obtain rfl := Except.ok.inj hresult
  refine ⟨classified, command.classification, orRefused_ok hclassified, hparse, ?_, ?_, ?_, rfl,
    rfl, rfl, rfl⟩
  · show (if gate.enabled then _ else _ : StoredSteeringCommand).command.classification = _
    split <;> rfl
  · show (if gate.enabled then _ else _ : StoredSteeringCommand).command.workId.isSome = _
    split <;> exact hwork
  · show (if gate.enabled then _ else _ : StoredSteeringCommand).applicationStatus = _
    split <;> rfl

end Submitted

/-! ## The charge announced and the charge billed -/

/-- **The steering quote is the steering bill**: as many units are announced as the launch bills,
and a charge is announced exactly when a launch comes; the units of a patch or a derived revision
are split into those it affects and those it preserves. -/
structure QuoteIsBill (consumers : SteeringActionConsumers) (units : List SteeringUnitProgress)
    (result : SubmitSteeringResult) : Prop where
  count : ∀ preparedQuantity, result.impact.alreadyInvokedUnitIds.length =
    ((result.stored.launch consumers).map (billedQuantity · preparedQuantity)).getD 0
  rebilled : result.impact.rebilled = true ↔ (result.stored.launch consumers).isSome = true
  partition : result.stored.command.classification.isUnsafe = false →
    result.stored.command.classification.isPlanChange = false →
    (result.affectedUnitIds ++ result.preservedUnitIds).Perm (units.map (·.unitId))

/-- Can a submission be launched: is the gate on, the derived workflow bound and the work named? -/
def launchable (consumers : SteeringActionConsumers) (gate : MakeSteeringGate)
    (input : SubmitSteeringInput) : Bool :=
  gate.enabled && consumers.derivedWorkflow && input.namesWork

/-- **The scopes the two rules agree on**: what the instruction steers is pending or completed, and
pending where nothing can be launched. -/
def SettledScope (consumers : SteeringActionConsumers) (gate : MakeSteeringGate)
    (input : SubmitSteeringInput) : Prop :=
  SteersUnits (Text.trim input.instruction) input.units input.signals →
    ∀ u ∈ steered (Text.trim input.instruction) input.units input.signals,
      u.status = .pending ∨ launchable consumers gate input = true ∧ u.status = .completed

instance (instruction : String) (units : List SteeringUnitProgress)
    (signals : SteeringClassifySignals) : Decidable (SteersUnits instruction units signals) :=
  inferInstanceAs (Decidable (_ ∧ _ ∧ _ ≠ _))

instance (consumers : SteeringActionConsumers) (gate : MakeSteeringGate)
    (input : SubmitSteeringInput) : Decidable (SettledScope consumers gate input) :=
  inferInstanceAs (Decidable (SteersUnits _ _ _ →
    ∀ u ∈ steered _ _ _, u.status = .pending ∨ _ = true ∧ u.status = .completed))

section Quotes

variable {units : SteeringUnits} {consumers : SteeringActionConsumers} {gate : MakeSteeringGate}
  {preview : Nat → Option Nat} {input : SubmitSteeringInput} {result : SubmitSteeringResult}
  {c : SteeringClassifyResult} {parsed : SteeringClassification} {scope : List SteeringUnitProgress}

theorem toOption_consumeDerivedRevision (command : MakeSteeringCommand) :
    (consumeDerivedRevision consumers command).toOption =
      if consumers.derivedWorkflow && command.workId.isSome then
        some (billedAffectedUnitIds command command.affectedUnitIds) else none := by
  rw [consumeDerivedRevision]
  cases consumers.derivedWorkflow <;> cases command.workId <;> rfl

/-- A command that is neither refused nor sent back to the plan is launched when it is a derived
revision and can be. -/
theorem Submitted.launch (h : Submitted gate input result c parsed)
    (hcareful : c.classification.isUnsafe = false) (hplan : c.classification.isPlanChange = false) :
    result.stored.launch consumers = if launchable consumers gate input && parsed.isDerived then
      some (billedAffectedUnitIds result.stored.command result.stored.command.affectedUnitIds)
      else none := by
  have hlive : (decide (result.stored.applicationStatus = .accepted) || result.stored.isQueued) =
      gate.enabled := by
    rw [StoredSteeringCommand.isQueued, h.status]
    cases gate.enabled with
    | false => simp
    | true =>
      simp only [if_pos, resolveApplicationStatus, hcareful, hplan]
      cases input.applyImmediately <;> cases c.queueMode <;> simp
  rw [StoredSteeringCommand.launch, hlive, h.stored, toOption_consumeDerivedRevision, h.work,
    launchable]
  cases gate.enabled <;> cases parsed.isDerived <;> simp

/-- Nothing is announced and nothing billed for what is refused or sent back to the plan. -/
theorem quoteIsBill_of_refused (h : Submitted gate input result c parsed)
    (hids : c.affectedUnitIds = [])
    (hkind : c.classification.isUnsafe = true ∨ c.classification.isPlanChange = true) :
    QuoteIsBill consumers units.list result := by
  obtain ⟨hderived, hcareful, hplan⟩ := SteeringClassification.parse_kind h.parse
  have hnot : c.classification.isDerived = false := by
    cases hclass : c.classification with
    | derivedRevision ids requote =>
      rw [hclass] at hkind
      exact hkind.elim nofun nofun
    | _ => rfl
  have hnone : result.stored.launch consumers = none := by
    rw [StoredSteeringCommand.launch, h.stored, hderived, hnot, Bool.and_false]
    rfl
  have hinvoked : result.impact.alreadyInvokedUnitIds = [] := by
    rw [h.invoked, hids]
    rfl
  refine ⟨fun _ => by rw [hnone, hinvoked]; rfl, ?_, fun hu hp => ?_⟩
  · rw [h.rebilled, hnone]
    rcases hkind with hkind | hkind <;> simp [hkind]
  · rw [h.stored, hcareful] at hu
    rw [h.stored, hplan] at hp
    rcases hkind with hkind | hkind
    · exact nomatch hkind.symm.trans hu
    · exact nomatch hkind.symm.trans hp

/-- **As many units are not pending as are completed** when none is running or failed. -/
theorem length_invoked_iff (scope : List SteeringUnitProgress) :
    (scope.filter (·.status ≠ .pending)).length = (scope.filter (·.status = .completed)).length ↔
      ∀ u ∈ scope, u.status = .pending ∨ u.status = .completed := by
  have hsplit := ((Scope.perm_completed scope).filter (·.status ≠ .pending)).length_eq
  have hcompleted : (scope.filter (·.status = .completed)).filter (·.status ≠ .pending) =
      scope.filter (·.status = .completed) := by
    refine List.filter_eq_self.mpr fun u hu => ?_
    have hstatus : u.status = .completed := by simpa using (List.mem_filter.mp hu).2
    rw [hstatus]
    rfl
  rw [List.filter_append, List.length_append, hcompleted] at hsplit
  rw [← hsplit, Nat.add_eq_left, List.length_eq_zero_iff, List.filter_filter, List.filter_eq_nil_iff]
  refine forall₂_congr fun u _ => ?_
  cases u.status <;> decide

/-- What is announced is counted on the units of the scope. -/
theorem Submitted.length_invoked (h : Submitted gate input result c parsed)
    (hunits : input.units = units.list) {picked : List SteeringUnitProgress}
    (hpicked : Scope units picked) (hperm : picked.Perm scope)
    (hids : c.affectedUnitIds = picked.map (·.unitId)) :
    result.impact.alreadyInvokedUnitIds.length = (scope.filter (·.status ≠ .pending)).length := by
  rw [h.invoked, hids, hunits, hpicked.invoked, List.length_map, (hperm.filter _).length_eq]

theorem quoteIsBill_iff_derived (hscope : Scope units scope) (hunits : input.units = units.list)
    {requote : Bool} {queueMode : SteeringQueueMode} {impactSummary : String}
    (hcompleted : ∃ u ∈ scope, u.status = .completed)
    (h : Submitted gate input result ⟨.derivedRevision
      ((scope.filter (·.status = .completed)).map (·.unitId)) requote,
      (scope.filter (·.status = .completed) ++ scope.filter (·.status ≠ .completed)).map (·.unitId),
      queueMode, impactSummary, (Scope.rest units scope).map (·.unitId)⟩ parsed) :
    QuoteIsBill consumers units.list result ↔ ∀ u ∈ scope,
      u.status = .pending ∨ launchable consumers gate input = true ∧ u.status = .completed := by
  have hpicked := hscope.of_perm (Scope.perm_completed scope)
  have hcount := h.length_invoked hunits hpicked (Scope.perm_completed scope) rfl
  have hmem : ∀ u ∈ scope.filter (·.status = .completed), u ∈ units.list :=
    fun u hu => hscope.mem u (List.mem_filter.mp hu).1
  have hids : ((scope.filter (·.status = .completed)).map (·.unitId)).mapM parseTrimmed =
      some ((scope.filter (·.status = .completed)).map (·.unitId)) := by
    have hids := SteeringUnits.mapM_asUnitId hmem
    simp only [asUnitId] at hids
    rwa [List.mapM_map, Function.comp_def]
  have hparsed := SteeringClassification.parse_derived hids h.parse
  have hne : (scope.filter (·.status = .completed)).map (·.unitId) ≠ [] := by
    obtain ⟨u, hu, hstatus⟩ := hcompleted
    exact List.ne_nil_of_mem (List.mem_map_of_mem
      (List.mem_filter.mpr ⟨hu, decide_eq_true hstatus⟩))
  have hlaunch : result.stored.launch consumers = _ := h.launch rfl rfl
  have hrebilled : result.impact.rebilled = true := h.rebilled
  have hpartition : (result.affectedUnitIds ++ result.preservedUnitIds).Perm
      (units.list.map (·.unitId)) := by
    rw [h.affected, h.preserved, ← List.map_append]
    exact ((((Scope.perm_completed scope).append_right _).trans hscope.perm).map _)
  rw [billedAffectedUnitIds, h.stored, hparsed] at hlaunch
  simp only [SteeringClassification.isDerived, Bool.and_true, if_pos hne] at hlaunch
  cases hgate : launchable consumers gate input with
  | false =>
    rw [hgate, if_neg Bool.false_ne_true] at hlaunch
    refine iff_of_false (fun hq => ?_) fun hall => ?_
    · have hsome := hq.rebilled.mp hrebilled
      rw [hlaunch] at hsome
      exact nomatch hsome
    · obtain ⟨u, hu, hstatus⟩ := hcompleted
      rcases hall u hu with hpending | ⟨hgate, -⟩
      · exact nomatch hstatus.symm.trans hpending
      · exact nomatch hgate
  | true =>
    rw [hgate, if_pos rfl] at hlaunch
    have hbilled (n : Nat) : ((result.stored.launch consumers).map (billedQuantity · n)).getD 0 =
        (scope.filter (·.status = .completed)).length := by
      rw [hlaunch, Option.map_some, Option.getD_some, billedQuantity,
        if_pos (List.length_pos_iff.mpr hne), List.length_map]
    simp only [true_and]
    rw [← length_invoked_iff, ← hcount]
    refine ⟨fun hq => (hq.count 0).trans (hbilled 0), fun hlen => ⟨fun n => hlen.trans (hbilled n).symm,
      iff_of_true hrebilled (hlaunch ▸ rfl), fun _ _ => hpartition⟩⟩

theorem quoteIsBill_iff_patch (hscope : Scope units scope) (hunits : input.units = units.list)
    {queueMode : SteeringQueueMode} {impactSummary : String}
    (hfuture : ∀ u ∈ scope, u.status ≠ .completed)
    (h : Submitted gate input result ⟨.futureStepPatch (scope.map (·.unitId)), scope.map (·.unitId),
      queueMode, impactSummary, (Scope.rest units scope).map (·.unitId)⟩ parsed) :
    QuoteIsBill consumers units.list result ↔ ∀ u ∈ scope,
      u.status = .pending ∨ launchable consumers gate input = true ∧ u.status = .completed := by
  have hcount := h.length_invoked hunits hscope (.refl scope) rfl
  have hlaunch : result.stored.launch consumers = none := by
    rw [h.launch rfl rfl, (SteeringClassification.parse_kind h.parse).1]
    exact if_neg (by simp [SteeringClassification.isDerived])
  have hrebilled : result.impact.rebilled = true ↔ result.impact.alreadyInvokedUnitIds ≠ [] := by
    rw [h.rebilled]
    exact decide_eq_true_iff
  have hpartition : (result.affectedUnitIds ++ result.preservedUnitIds).Perm
      (units.list.map (·.unitId)) := by
    rw [h.affected, h.preserved, ← List.map_append]
    exact hscope.perm.map _
  have hpending : result.impact.alreadyInvokedUnitIds = [] ↔
      ∀ u ∈ scope,
        u.status = .pending ∨ launchable consumers gate input = true ∧ u.status = .completed := by
    rw [← List.length_eq_zero_iff, hcount, List.length_eq_zero_iff, List.filter_eq_nil_iff]
    refine forall₂_congr fun u hu => ?_
    simp [hfuture u hu]
  rw [← hpending]
  constructor
  · intro hq
    have hzero := hq.count 0
    rw [hlaunch] at hzero
    exact List.length_eq_zero_iff.mp hzero
  · intro hnil
    refine ⟨fun _ => ?_, ?_, fun _ _ => hpartition⟩
    · rw [hnil, hlaunch]
      rfl
    · rw [hrebilled, hlaunch]
      exact iff_of_false (not_not_intro hnil) nofun

end Quotes

/-! ## A note whose cover is done -/

section Note

/-- The cover is done, the second page in the given status. -/
def noteProgress (second : SteeringUnitStatus) : SteeringUnits where
  list := [⟨"p1", .completed, some "封面", some 0⟩, ⟨"p2", second, some "第2页", some 1⟩]
  distinct := by cases second <;> decide
  trimmed := by cases second <;> decide +kernel

def noteSubmission (second : SteeringUnitStatus) : SubmitSteeringInput :=
  { commandId := "steer-1", workspaceId := "w", threadId := "t", taskId := "task",
    workId := some "work", actorId := "m", instruction := "都改",
    sourcePlanRevision := 1, units := (noteProgress second).list,
    createdAt := "2026-07-01T00:00:00.000Z" }

def steeringOn : MakeSteeringGate := ⟨true, .enabled⟩

def derivedWorkflowBound : SteeringActionConsumers := ⟨true⟩

/-- What the submission answers. -/
def noteAnswer (second : SteeringUnitStatus) : Option SubmitSteeringResult :=
  (submit derivedWorkflowBound steeringOn (fun _ => none) (noteSubmission second)).toOption

theorem submit_note {second : SteeringUnitStatus} {result : SubmitSteeringResult}
    (h : noteAnswer second = some result) :
    submit derivedWorkflowBound steeringOn (fun _ => none) (noteSubmission second) =
      .ok result := by
  rw [noteAnswer] at h
  cases hsubmit : submit derivedWorkflowBound steeringOn (fun _ => none)
    (noteSubmission second) with
  | error e =>
    rw [hsubmit] at h
    exact nomatch h
  | ok r =>
    rw [hsubmit] at h
    exact congrArg Except.ok (Option.some.inj h)

end Note

end MeiyeAgent
