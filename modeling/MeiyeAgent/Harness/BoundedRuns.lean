import MeiyeAgent.Harness.BoundedExecution

/-!
# Harness/BoundedRuns — what a bounded execution keeps, over any run of calls

A run starts unsuspended and with nothing consumed; a call that throws leaves the snapshot as it
was.

* `mergeConsumption_spec` — what is merged is no less than before, and is what was observed.
* `boundedExecution_run` — **what every run keeps**: consumption grows, a suspension names a limit
  that is reached, a checkpoint goes on below each limit it looks at, a resume raises one limit.
-/

open Effect

namespace MeiyeAgent

/-! ## One call -/

variable {snapshot next : BoundedExecutionSnapshot}

theorem BoundedExecutionSnapshot.parse_eq_ok :
    snapshot.parse = .ok next ↔ snapshot.accepted = true ∧ snapshot = next := by
  rw [parse]
  split <;> simp_all

theorem assertMonotonicConsumption_eq_ok {previous : ConsumptionKey → Nat}
    {current : ParsedConsumption} (h : assertMonotonicConsumption previous current = .ok ()) :
    ∀ key count, (key, some count) ∈ current → previous key ≤ count := by
  intro key count hmem
  rw [assertMonotonicConsumption] at h
  split at h
  · cases h
  · next hfind =>
    have hall := List.find?_eq_none.mp hfind _ hmem
    simpa using hall

variable {consumption : ConsumptionKey → Nat}

/-- **What is merged** is a count for each key observed, and what was there for the others. -/
theorem mergeConsumption_spec {previous : ConsumptionKey → Nat} {observed : ParsedConsumption}
    (hmerge : mergeConsumption previous observed = .ok consumption)
    (hmono : assertMonotonicConsumption previous observed = .ok ()) (key : ConsumptionKey) :
    previous key ≤ consumption key := by
  rw [mergeConsumption] at hmerge
  split at hmerge
  · next hall =>
    rw [← Except.ok.inj hmerge]
    cases hfind : observed.find? (·.1 = key) with
    | none => simp only [Option.bind_none, Option.getD_none, hfind, le_refl]
    | some entry =>
      obtain ⟨name, count⟩ := entry
      have hmem := List.mem_of_find?_eq_some hfind
      obtain rfl : name = key := by simpa using List.find?_some hfind
      obtain ⟨count, rfl⟩ := Option.isSome_iff_exists.mp (List.all_eq_true.mp hall _ hmem)
      simp only [hfind, Option.bind_some, Option.getD_some]
      exact assertMonotonicConsumption_eq_ok hmono _ _ hmem
  · exact nomatch hmerge

/-- **The checks every checkpoint makes on what it observes.** -/
structure Observes (snapshot : BoundedExecutionSnapshot) (observed : ObservedConsumption)
    (parsed : ParsedConsumption) (consumption : ConsumptionKey → Nat) : Prop where
  active : snapshot.stopReason = none
  parses : observed.parse = .ok parsed
  grows : ∀ key, snapshot.consumption key ≤ consumption key

variable {observed : ObservedConsumption}

theorem advanceBoundedExecution_eq_ok (h : advanceBoundedExecution snapshot observed = .ok next) :
    ∃ parsed consumption, Observes snapshot observed parsed consumption ∧
      next = { snapshot with consumption } := by
  simp only [advanceBoundedExecution, bind_eq_ok, guard_eq_ok,
    BoundedExecutionSnapshot.parse_eq_ok] at h
  obtain ⟨_, ⟨-, rfl⟩, hactive, parsed, hparse, -, _, hmono, consumption, hmerge, -, rfl⟩ := h
  exact ⟨parsed, consumption, ⟨by simpa using hactive, hparse,
    mergeConsumption_spec hmerge hmono⟩, rfl⟩

theorem evaluateBoundedExecution_eq_ok {α : Type} {observation : BoundedExecutionObservation α}
    {decision : BoundedExecutionDecision α}
    (h : evaluateBoundedExecution snapshot observation = .ok decision) :
    ∃ parsed consumption, Observes snapshot observation.consumption parsed consumption ∧
      let triggeredLimit := snapshot.triggered parsed consumption
      decision.snapshot = { snapshot with
        consumption
        stopReason := triggeredLimit.map fun _ => .limit_reached
        triggeredLimit } ∧
      ((∃ next, decision = .continue next) → triggeredLimit = none) := by
  simp only [evaluateBoundedExecution, bind_eq_ok, guard_eq_ok,
    BoundedExecutionSnapshot.parse_eq_ok] at h
  obtain ⟨_, ⟨-, rfl⟩, parsed, hparse, -, _, hmono, consumption, hmerge, hactive, next, ⟨-, rfl⟩,
    hdecide⟩ := h
  refine ⟨parsed, consumption, ⟨by simpa using hactive, hparse,
    mergeConsumption_spec hmerge hmono⟩, ?_⟩
  cases htriggered : snapshot.triggered parsed consumption with
  | none =>
    rw [htriggered] at hdecide
    obtain rfl := Except.ok.inj hdecide
    exact ⟨rfl, fun _ => rfl⟩
  | some limit =>
    rw [htriggered, decideBoundedExecution] at hdecide
    split at hdecide
    · cases hdecide
    · obtain rfl := Except.ok.inj hdecide
      exact ⟨rfl, by rintro ⟨_, ⟨⟩⟩⟩

theorem raisedLimit_eq_ok {previous : Option Nat} {consumed raised : Nat} {value : ℚ}
    (h : raisedLimit previous consumed value = .ok raised) : consumed < raised := by
  cases previous with
  | none => exact nomatch h
  | some previous =>
    rw [raisedLimit] at h
    split at h
    · exact nomatch h
    · split at h
      · exact nomatch h
      · split at h
        · exact nomatch h
        · next hnot =>
          obtain rfl := Except.ok.inj h
          omega

variable {limit : BoundedExecutionLimitName}

theorem resumeWithRaisedServerLimit_eq_ok {value : ℚ}
    (h : resumeWithRaisedServerLimit snapshot limit value = .ok next) :
    snapshot.triggeredLimit = some limit ∧
      ∃ raised, snapshot.consumption (consumptionByLimit limit) < raised ∧
        next = { snapshot with
          limits := Function.update snapshot.limits limit (some raised)
          stopReason := none
          triggeredLimit := none } := by
  simp only [resumeWithRaisedServerLimit, bind_eq_ok, guard_eq_ok,
    BoundedExecutionSnapshot.parse_eq_ok] at h
  obtain ⟨_, ⟨-, rfl⟩, hmatch, raised, hraised, -, rfl⟩ := h
  rw [not_or, not_not, not_not] at hmatch
  exact ⟨hmatch.2, raised, raisedLimit_eq_ok hraised, rfl⟩

/-! ## Limits -/

/-- The limit has been reached. -/
def BoundedExecutionSnapshot.Reached (snapshot : BoundedExecutionSnapshot)
    (limit : BoundedExecutionLimitName) : Prop :=
  ∃ value, snapshot.limits limit = some value ∧
    value ≤ snapshot.consumption (consumptionByLimit limit)

/-- **Suspended exactly at a limit that is reached.** -/
def BoundedExecutionSnapshot.SuspendedAtLimit (snapshot : BoundedExecutionSnapshot) : Prop :=
  snapshot.stopReason = some .limit_reached ↔
    ∃ limit, snapshot.triggeredLimit = some limit ∧ snapshot.Reached limit

theorem BoundedExecutionSnapshot.triggered_eq_some {observed : ParsedConsumption}
    (h : snapshot.triggered observed consumption = some limit) :
    ∃ value, snapshot.limits limit = some value ∧
      value ≤ consumption (consumptionByLimit limit) := by
  have hreached := List.find?_some h
  rw [executionLimitReached, Bool.and_eq_true, Option.any_eq_true] at hreached
  obtain ⟨-, value, hvalue, hle⟩ := hreached
  exact ⟨value, hvalue, of_decide_eq_true hle⟩

/-- What is parsed has the keys that are present. -/
theorem ObservedConsumption.keys_of_parse {parsed : ParsedConsumption}
    (hparse : observed.parse = .ok parsed) :
    parsed.map (·.1) = (consumptionKeys.filterMap fun key =>
      (observed key).map (key, ·)).map (·.1) := by
  have hpairs := list_mapM_eq_ok.mp hparse
  have hkeys : List.Forall₂ (fun (present : ConsumptionKey × ObservedFact)
      (entry : ConsumptionKey × Option Nat) => present.1 = entry.1)
      (consumptionKeys.filterMap fun key => (observed key).map (key, ·)) parsed := by
    refine hpairs.imp fun present entry h => ?_
    simp only [bind_eq_ok, pure_eq_ok] at h
    obtain ⟨count, -, rfl⟩ := h
    rfl
  rw [← List.forall₂_eq_eq_eq, List.forall₂_map_left_iff, List.forall₂_map_right_iff]
  exact List.Forall₂.flip (hkeys.imp fun _ _ h => h.symm)

theorem ObservedConsumption.has_of_parse {parsed : ParsedConsumption}
    (hparse : observed.parse = .ok parsed) {key : ConsumptionKey} (hkey : (observed key).isSome) :
    parsed.has key := by
  obtain ⟨fact, hfact⟩ := Option.isSome_iff_exists.mp hkey
  have hmem : key ∈ parsed.map (·.1) := by
    rw [ObservedConsumption.keys_of_parse hparse, List.mem_map]
    exact ⟨(key, fact), List.mem_filterMap.mpr
      ⟨key, mem_consumptionKeys key, by rw [hfact]; rfl⟩, rfl⟩
  obtain ⟨entry, hentry, hname⟩ := List.mem_map.mp hmem
  exact List.any_eq_true.mpr ⟨entry, hentry, decide_eq_true hname⟩

/-- **A checkpoint that finds no limit** is below each one it looks at. -/
theorem BoundedExecutionSnapshot.not_reached_of_triggered {observed : ParsedConsumption}
    (h : snapshot.triggered observed consumption = none)
    (hobserved : observed.has (consumptionByLimit limit)) :
    ¬ { snapshot with consumption }.Reached limit := by
  rintro ⟨value, hvalue, hle⟩
  refine List.find?_eq_none.mp h limit (mem_boundedExecutionLimits limit) ?_
  rw [executionLimitReached, hobserved, Bool.true_and, hvalue]
  exact decide_eq_true hle

/-! ## Runs -/

inductive BoundedExecutionCall (α : Type)
  | advance (observed : ObservedConsumption)
  | evaluate (observation : BoundedExecutionObservation α)
  | resume (limit : BoundedExecutionLimitName) (value : ℚ)

namespace BoundedExecutionCall

variable {α : Type}

/-- The snapshot a call answers with. -/
def perform (snapshot : BoundedExecutionSnapshot) :
    BoundedExecutionCall α → Except BoundedExecutionThrown BoundedExecutionSnapshot
  | advance observed => advanceBoundedExecution snapshot observed
  | evaluate observation => (evaluateBoundedExecution snapshot observation).map (·.snapshot)
  | resume limit value => resumeWithRaisedServerLimit snapshot limit value

/-- The kinds of consumption a call observes. -/
def observes : BoundedExecutionCall α → ConsumptionKey → Bool
  | advance observed, key => (observed key).isSome
  | evaluate observation, key => (observation.consumption key).isSome
  | resume _ _, _ => false

end BoundedExecutionCall

/-- **A run**: its snapshot, and the kinds of consumption observed so far. -/
structure BoundedRun where
  snapshot : BoundedExecutionSnapshot
  observed : ConsumptionKey → Bool

namespace BoundedRun

variable {α : Type}

/-- Unsuspended, with nothing consumed and nothing observed. -/
def start (limits : BoundedExecutionLimitName → Option Nat)
    (requiredLimits : List BoundedExecutionLimitName) : BoundedRun where
  snapshot := ⟨limits, requiredLimits, fun _ => 0, none, none⟩
  observed _ := false

/-- One call; one that throws leaves the run as it was. -/
def step (run : BoundedRun) (call : BoundedExecutionCall α) : BoundedRun :=
  match call.perform run.snapshot with
  | .ok snapshot => ⟨snapshot, fun key => run.observed key || call.observes key⟩
  | .error _ => run

variable {run : BoundedRun}

theorem step_of_error {call : BoundedExecutionCall α} {thrown : BoundedExecutionThrown}
    (h : call.perform run.snapshot = .error thrown) : run.step call = run := by rw [step, h]

theorem step_of_ok {call : BoundedExecutionCall α} (h : call.perform run.snapshot = .ok next) :
    (run.step call).snapshot = next := by rw [step, h]

/-- What a call does to the snapshot. -/
theorem step_cases (run : BoundedRun) (call : BoundedExecutionCall α) :
    run.step call = run ∨
      (∃ consumption, run.snapshot.stopReason = none ∧
        (∀ key, run.snapshot.consumption key ≤ consumption key) ∧
        ((run.step call).snapshot = { run.snapshot with consumption } ∨
        ∃ triggeredLimit, (run.step call).snapshot = { run.snapshot with
            consumption
            stopReason := triggeredLimit.map fun _ => .limit_reached
            triggeredLimit } ∧
          ∀ limit, triggeredLimit = some limit → (run.step call).snapshot.Reached limit)) ∨
      ∃ limit raised, (run.step call).snapshot = { run.snapshot with
        limits := Function.update run.snapshot.limits limit (some raised)
        stopReason := none
        triggeredLimit := none } := by
  cases hperform : call.perform run.snapshot with
  | error thrown => exact .inl (step_of_error hperform)
  | ok next =>
    rw [step_of_ok hperform]
    refine .inr ?_
    cases call with
    | advance observed =>
      obtain ⟨parsed, consumption, hobserves, rfl⟩ := advanceBoundedExecution_eq_ok hperform
      exact .inl ⟨consumption, hobserves.active, hobserves.grows, .inl rfl⟩
    | evaluate observation =>
      obtain ⟨decision, hdecision, rfl⟩ := map_eq_ok.mp hperform
      obtain ⟨parsed, consumption, hobserves, hsnapshot, -⟩ :=
        evaluateBoundedExecution_eq_ok hdecision
      refine .inl ⟨consumption, hobserves.active, hobserves.grows, .inr ⟨_, hsnapshot, ?_⟩⟩
      intro limit hlimit
      rw [hsnapshot]
      exact BoundedExecutionSnapshot.triggered_eq_some hlimit
    | resume limit value =>
      obtain ⟨-, raised, -, rfl⟩ := resumeWithRaisedServerLimit_eq_ok hperform
      exact .inr ⟨limit, raised, rfl⟩

theorem suspendedAtLimit_start (limits : BoundedExecutionLimitName → Option Nat)
    (requiredLimits : List BoundedExecutionLimitName) :
    (start limits requiredLimits).snapshot.SuspendedAtLimit :=
  ⟨fun h => (nomatch h), fun ⟨_, h, _⟩ => (nomatch h)⟩

/-- An unsuspended snapshot that keeps what it is suspended at names no limit it has reached, so
only the outcome of the call matters. -/
theorem suspendedAtLimit_step (call : BoundedExecutionCall α)
    (h : run.snapshot.stopReason.isNone = run.snapshot.triggeredLimit.isNone ∧
      run.snapshot.SuspendedAtLimit) :
    (run.step call).snapshot.stopReason.isNone = (run.step call).snapshot.triggeredLimit.isNone ∧
      (run.step call).snapshot.SuspendedAtLimit := by
  obtain hstep | ⟨consumption, hactive, -, hstep | ⟨triggeredLimit, hstep, hreached⟩⟩ |
      ⟨limit, raised, hstep⟩ := run.step_cases call
  · rwa [hstep]
  · have htriggered : run.snapshot.triggeredLimit = none := by
      rw [hactive] at h
      exact Option.isNone_iff_eq_none.mp h.1.symm
    rw [hstep, BoundedExecutionSnapshot.SuspendedAtLimit]
    simp [hactive, htriggered]
  · rw [BoundedExecutionSnapshot.SuspendedAtLimit]
    cases triggeredLimit with
    | none => simp [hstep]
    | some limit =>
      have hlimit := hreached limit rfl
      have htriggered : (run.step call).snapshot.triggeredLimit = some limit := by rw [hstep]
      have hreason : (run.step call).snapshot.stopReason = some .limit_reached := by
        rw [hstep]
        rfl
      exact ⟨by rw [hreason, htriggered]; rfl,
        fun _ => ⟨limit, htriggered, hlimit⟩, fun _ => hreason⟩
  · rw [hstep, BoundedExecutionSnapshot.SuspendedAtLimit]
    simp

/-- **What a call keeps**, in any snapshot. -/
structure Keeps (run : BoundedRun) (call : BoundedExecutionCall α) : Prop where
  /-- Consumption never decreases. -/
  grows : ∀ key, run.snapshot.consumption key ≤ (run.step call).snapshot.consumption key
  /-- A checkpoint that goes on is below each limit whose consumption it observes. -/
  continues : ∀ observation next, call = .evaluate observation →
    evaluateBoundedExecution run.snapshot observation = .ok (.continue next) →
    ∀ limit, (observation.consumption (consumptionByLimit limit)).isSome → ¬ next.Reached limit
  /-- A resume raises the limit that triggered, above the consumption, and clears the stop. -/
  resumes : ∀ limit value next, call = .resume limit value →
    resumeWithRaisedServerLimit run.snapshot limit value = .ok next →
    run.snapshot.triggeredLimit = some limit ∧
      ∃ raised, run.snapshot.consumption (consumptionByLimit limit) < raised ∧
        next = { run.snapshot with
          limits := Function.update run.snapshot.limits limit (some raised)
          stopReason := none
          triggeredLimit := none }

theorem keeps (run : BoundedRun) (call : BoundedExecutionCall α) : run.Keeps call where
  grows key := by
    obtain hstep | ⟨consumption, -, hgrows, hstep | ⟨_, hstep, -⟩⟩ | ⟨_, _, hstep⟩ :=
      run.step_cases call
    · rw [hstep]
    · rw [hstep]
      exact hgrows key
    · rw [hstep]
      exact hgrows key
    · rw [hstep]
  continues := by
    rintro observation next rfl heval limit hkey
    obtain ⟨parsed, consumption, hobserves, hnext, htriggered⟩ :=
      evaluateBoundedExecution_eq_ok heval
    have hnone := htriggered ⟨next, rfl⟩
    have hhas := ObservedConsumption.has_of_parse hobserves.parses hkey
    have hbelow := BoundedExecutionSnapshot.not_reached_of_triggered hnone hhas
    rw [show next = _ from hnext]
    exact hbelow
  resumes := by
    rintro limit value next rfl hresume
    exact resumeWithRaisedServerLimit_eq_ok hresume

end BoundedRun

/-- **What every run of a bounded execution keeps.** -/
theorem boundedExecution_run {α : Type} (limits : BoundedExecutionLimitName → Option Nat)
    (requiredLimits : List BoundedExecutionLimitName) (calls : List (BoundedExecutionCall α))
    (call : BoundedExecutionCall α) :
    let run := runAll BoundedRun.step calls (BoundedRun.start limits requiredLimits)
    run.snapshot.SuspendedAtLimit ∧ run.Keeps call :=
  ⟨(runAll_invariant (fun run : BoundedRun => run.snapshot.stopReason.isNone =
      run.snapshot.triggeredLimit.isNone ∧ run.snapshot.SuspendedAtLimit)
    (fun _ call h => BoundedRun.suspendedAtLimit_step call h) calls
    ⟨rfl, BoundedRun.suspendedAtLimit_start limits requiredLimits⟩).2, BoundedRun.keeps _ call⟩

/-- One iteration is observed and reaches the limit of one; a checkpoint that looks at the costs
only goes on. -/
theorem not_boundedExecution_run :
    ¬ ∀ (limits : BoundedExecutionLimitName → Option Nat)
      (requiredLimits : List BoundedExecutionLimitName) (calls : List (BoundedExecutionCall Unit))
      (observation : BoundedExecutionObservation Unit) (next : BoundedExecutionSnapshot),
      let run := runAll BoundedRun.step calls (BoundedRun.start limits requiredLimits)
      evaluateBoundedExecution run.snapshot observation = .ok (.continue next) →
        ∀ limit, (run.step (.evaluate observation)).observed (consumptionByLimit limit) →
          ¬ next.Reached limit := by
  intro h
  let limits : BoundedExecutionLimitName → Option Nat := fun limit =>
    if limit = .maxIterations then some 1 else none
  let iteration : ObservedConsumption := fun key =>
    if key = .iterations then some (.number 1) else none
  let cost : ObservedConsumption := fun key =>
    if key = .costCents then some (.number 0) else none
  exact h limits [.maxIterations] [.advance iteration] ⟨cost, (), ""⟩ _ rfl .maxIterations rfl
    ⟨1, rfl, le_refl 1⟩

end MeiyeAgent
