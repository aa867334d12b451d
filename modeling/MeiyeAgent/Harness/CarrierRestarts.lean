import MeiyeAgent.Harness.MalformedPlans

/-!
# Harness/CarrierRestarts — a plan that is executed again and again

An attempt stops where a handler throws; the next one starts over, on the effects that are kept.

* `RanOnceUnder.attempts` — **no attempt runs a completed handler again**, unless its unit is
  self-durable.
-/

open Effect

namespace MeiyeAgent

open Execution (Schedules Reached Dispatched)

variable {ε : Type} {plan : CompiledExecutionPlan} {unit : ExecutionUnit}
  {units : List ExecutionUnit}

/-- An execution on the memory store. -/
def memoryExecution (executionId : String) (selfDurablePrimitives : List CompiledPrimitiveId)
    (handlers : PrimitiveHandlers ε) : Execution (OrderedMap String Json) ε :=
  ⟨handlers, createMemoryPrimitiveEffectStore, executionId, selfDurablePrimitives⟩

/-- **One attempt**: what the entry leaves, whichever way it ends. -/
def attempt (executionId : String) (selfDurablePrimitives : List CompiledPrimitiveId)
    (context : CompiledCarrierExecutorContext) (s : ExecutorState (OrderedMap String Json))
    (handlers : PrimitiveHandlers ε) : ExecutorState (OrderedMap String Json) :=
  final (executeCompiledCarrierPlan (memoryExecution executionId selfDurablePrimitives handlers)
    context) s

section

variable {x : Execution (OrderedMap String Json) ε} {s s' : ExecutorState (OrderedMap String Json)}

/-- What was completed, and is not self-durable, is kept and was not run again. -/
structure RanOnce (x : Execution (OrderedMap String Json) ε) (plan : CompiledExecutionPlan)
    (s : ExecutorState (OrderedMap String Json)) : Prop where
  bound : ∀ run ∈ s.ran, ∃ primitive, plan.bound run.unit.unitId = .ok (run.unit, primitive)
  kept : ∀ run ∈ s.ran, run.completed = true → x.selfDurable run.unit = false →
    x.keeps s.store run.unit.unitId = true
  once : s.ran.Pairwise fun earlier later => earlier.completed = true →
    x.selfDurable earlier.unit = false → later.unit.unitId ≠ earlier.unit.unitId

theorem RanOnce.empty : RanOnce x plan ⟨.empty, [], []⟩ where
  bound _ h := absurd h List.not_mem_nil
  kept _ h := absurd h List.not_mem_nil
  once := .nil

/-- What is kept stays kept. -/
theorem keeps_complete (hmemory : x.effectStore = createMemoryPrimitiveEffectStore)
    {store : OrderedMap String Json} {key unitId : String} {output : Json} :
    x.keeps (x.effectStore.complete store key output) unitId = true ↔
      x.effectKey unitId = key ∨ x.keeps store unitId = true := by
  simp only [Execution.keeps, hmemory, createMemoryPrimitiveEffectStore, OrderedMap.get?_set]
  split
  · next heq => simp [heq]
  · next hne => simp [hne]

/-- **One unit** keeps to it. -/
theorem RanOnce.dispatched (h : RanOnce x plan s)
    (hmemory : x.effectStore = createMemoryPrimitiveEffectStore)
    (hbound : ∃ primitive, plan.bound unit.unitId = .ok (unit, primitive))
    (hdispatched : Dispatched x s unit s') : RanOnce x plan s' := by
  cases hdispatched with
  | replayed hdurable hkept => exact ⟨h.bound, h.kept, h.once⟩
  | ran store completed hruns hstore hkept =>
    have hold : ∀ {unitId}, x.keeps s.store unitId = true → x.keeps store unitId = true := by
      intro unitId hkeeps
      rcases hstore with rfl | ⟨output, rfl⟩
      · exact hkeeps
      · exact (keeps_complete hmemory).mpr (.inr hkeeps)
    refine ⟨fun run hrun => ?_, fun run hrun hcompleted hdurable => ?_, ?_⟩
    · rcases List.mem_append.mp hrun with hrun | hrun
      · exact h.bound run hrun
      · obtain rfl := List.mem_singleton.mp hrun
        exact hbound
    · rcases List.mem_append.mp hrun with hrun | hrun
      · exact hold (h.kept run hrun hcompleted hdurable)
      · obtain rfl := List.mem_singleton.mp hrun
        obtain ⟨output, rfl⟩ := hkept hdurable hcompleted
        exact (keeps_complete hmemory).mpr (.inl rfl)
    · refine List.pairwise_append.mpr ⟨h.once, List.pairwise_singleton _ _, ?_⟩
      intro earlier hearlier later hlater hcompleted hdurable hsame
      obtain rfl := List.mem_singleton.mp hlater
      -- the unit of an id is one, so it is not self-durable either, and it is kept
      obtain ⟨primitive, hearlierBound⟩ := h.bound earlier hearlier
      obtain ⟨primitive', hunitBound⟩ := hbound
      have hunit : (earlier.unit, primitive) = (unit, primitive') :=
        Except.ok.inj (hearlierBound.symm.trans (hsame ▸ hunitBound))
      have hkeeps := h.kept earlier hearlier hcompleted hdurable
      rw [(Prod.mk.inj hunit).1] at hdurable hkeeps
      rcases hruns with hdurable' | hkeeps'
      · exact nomatch hdurable.symm.trans hdurable'
      · exact nomatch hkeeps.symm.trans hkeeps'

/-- **Units reached one after another** keep to it. -/
theorem RanOnce.reached (h : RanOnce x plan s)
    (hmemory : x.effectStore = createMemoryPrimitiveEffectStore) {ids : List String}
    (hunits : Schedules plan ids units) (hreached : Reached x s units s') : RanOnce x plan s' := by
  induction hreached generalizing ids with
  | nil => exact h
  | cons hdispatched _ ih =>
    cases hunits with
    | cons hbound hrest =>
      obtain ⟨primitive, hbound⟩ := hbound
      have hid := (unitId_of_bound hbound).2
      exact ih (h.dispatched hmemory ⟨primitive, hid ▸ hbound⟩ hdispatched) hrest

/-- However an execution ends, it keeps to it. -/
theorem RanOnce.executed {context : CompiledCarrierExecutorContext}
    {resolution : CompiledCarrierResolution} {outcome : Except (ExecutorThrown ε) Json}
    (h : RanOnce x resolution.executionPlan s)
    (hmemory : x.effectStore = createMemoryPrimitiveEffectStore)
    (hexecuted : x.Executed context resolution s outcome s') :
    RanOnce x resolution.executionPlan s' := by
  cases hexecuted with
  | refused => exact h
  | returned _ _ _ _ hunits hreached => exact h.reached hmemory hunits hreached
  | unrecorded _ _ _ _ hunits hreached => exact h.reached hmemory hunits hreached
  | unknown _ _ _ _ _ _ _ _ hunits hreached => exact h.reached hmemory hunits hreached
  | threw _ _ _ _ _ _ _ _ hunits hreached => exact h.reached hmemory hunits hreached

end

variable {executionId : String} {selfDurablePrimitives : List CompiledPrimitiveId}
  {context : CompiledCarrierExecutorContext}

/-- The same, of a state and what it is executed under. -/
def RanOnceUnder (ε : Type) (executionId : String)
    (selfDurablePrimitives : List CompiledPrimitiveId) (context : CompiledCarrierExecutorContext)
    (s : ExecutorState (OrderedMap String Json)) : Prop :=
  ∀ handlers : PrimitiveHandlers ε,
    RanOnce (memoryExecution executionId selfDurablePrimitives handlers)
      (resolveCompiledCarrierExecution context).executionPlan s

/-- **One attempt** keeps to it. -/
theorem RanOnceUnder.attempt {s : ExecutorState (OrderedMap String Json)}
    (h : RanOnceUnder ε executionId selfDurablePrimitives context s)
    (handlers : PrimitiveHandlers ε) : RanOnceUnder ε executionId selfDurablePrimitives context
      (attempt executionId selfDurablePrimitives context s handlers) := by
  have hspec := executeCompiledCarrierPlan_spec
    (memoryExecution executionId selfDurablePrimitives handlers) context s
  have hkeeps := wp_final.mp
    (hspec.mono (fun _ _ hexecuted => (h handlers).executed rfl hexecuted)
      fun _ _ hexecuted => (h handlers).executed rfl hexecuted)
  -- an execution keeps the same effects whatever its handlers
  exact fun _ => ⟨hkeeps.bound, hkeeps.kept, hkeeps.once⟩

/-- **Every run of attempts** keeps to it. -/
theorem RanOnceUnder.attempts (attempts : List (PrimitiveHandlers ε)) :
    RanOnceUnder ε executionId selfDurablePrimitives context
      (runAll (MeiyeAgent.attempt executionId selfDurablePrimitives context) attempts
        ⟨.empty, [], []⟩) :=
  runAll_invariant (RanOnceUnder ε executionId selfDurablePrimitives context)
    (fun _ handlers h => h.attempt handlers) attempts fun _ => .empty

end MeiyeAgent
