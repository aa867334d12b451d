import MeiyeAgent.Generation.GenerationService

/-!
# Generation/GenerationEffects — what a command can do to the tables

* `UsageRule` — when an event may follow the events of its resource.
* `Ends`, `CheckpointReserves` — what a job does with its reservation.
* `GenerationEffect` — **everything an operation can do**, with what the code has checked by then.
* `effect_of_step` — a command does one of these, or leaves the tables alone.
-/

namespace MeiyeAgent

open Effect GenerationTables

variable {s s' : GenerationTables}

namespace GenerationTables

/-- The tables with one more usage event. -/
def record (s : GenerationTables) (event : UsageEvent) : GenerationTables :=
  { s with usageEvents := s.usageEvents ++ [event] }

theorem listUsageEvents_record (event : UsageEvent) (resource : UsageResource) :
    (s.record event).listUsageEvents resource =
      s.listUsageEvents resource ++ if event.resource = resource then [event] else [] := by
  rw [listUsageEvents, listUsageEvents, record, List.filter_append]
  congr 1
  split
  · next h => rw [List.filter_cons_of_pos (by simpa using h), List.filter_nil]
  · next h => rw [List.filter_cons_of_neg (by simpa using h), List.filter_nil]

end GenerationTables

/-! ## Usage -/

/-- **When an event may follow**: a reservation is new and there is room for it, a terminal event is
the first of its reservation and fits it. -/
inductive UsageRule (events : List UsageEvent) (event : UsageEvent) : Prop
  | adjust (haction : event.action = .adjust) : UsageRule events event
  | compensate (haction : event.action = .compensate) : UsageRule events event
  | reserve (id : String) (haction : event.action = .reserve)
      (hid : event.reservationId = some id) (hnew : events.find? (·.isReserveOf id) = none)
      (hopen : events.find? (·.isTerminalOf id) = none) (hpositive : 0 < event.amount)
      (hroom : event.amount ≤ (projectUsage events).available) : UsageRule events event
  | terminal (id : String) (reservation : UsageEvent) (haction : event.action.isTerminal = true)
      (hid : event.reservationId = some id)
      (hreservation : events.find? (·.isReserveOf id) = some reservation)
      (hopen : events.find? (·.isTerminalOf id) = none)
      (hcommit : event.action = .commit → 0 ≤ event.amount ∧ event.amount ≤ reservation.amount)
      (hwhole : event.action ≠ .commit → event.amount = reservation.amount) :
      UsageRule events event

/-- **A job's reservation is ended**, or it was ended so before, or the job never had one. -/
inductive Ends (s : GenerationTables) (job : GenerationJob) (action : UsageAction) :
    GenerationTables → Prop
  | nothing (hnone : s.reservationOf job.operation job.usageReservationId = none)
      (hzero : isZeroValueUsageReservation job.usageReservationId = true) : Ends s job action s
  | before (terminal : UsageEvent)
      (hended : s.endOf job.operation job.usageReservationId = some terminal)
      (haction : terminal.action = action) : Ends s job action s
  | now (reservation event : UsageEvent)
      (hreservation : s.reservationOf job.operation job.usageReservationId = some reservation)
      (hopen : s.endOf job.operation job.usageReservationId = none)
      (hresource : event.resource = job.operation) (haction : event.action = action)
      (hid : event.reservationId = some job.usageReservationId)
      (hamount : event.amount = reservation.amount) : Ends s job action (s.record event)

/-- **The reservation of a checkpoint** is there with its amount, is not needed, or is made. -/
inductive CheckpointReserves (s : GenerationTables) (input : CheckpointIdentity) :
    GenerationTables → Prop
  | held (reservation : UsageEvent)
      (hreservation : s.reservationOf input.operation input.usageReservationId = some reservation)
      (hopen : s.endOf input.operation input.usageReservationId = none) :
      CheckpointReserves s input s
  | free (hnone : s.reservationOf input.operation input.usageReservationId = none)
      (hopen : s.endOf input.operation input.usageReservationId = none) :
      CheckpointReserves s input s
  | made (event : UsageEvent) (hresource : event.resource = input.operation)
      (haction : event.action = .reserve) (hamount : event.amount = input.usageAmount)
      (hid : event.reservationId = some input.usageReservationId)
      (hrule : UsageRule (s.listUsageEvents input.operation) event) :
      CheckpointReserves s input (s.record event)

/-- An opening entitlement is written, or not. -/
inductive Opens (s : GenerationTables) (operation : UsageResource) : GenerationTables → Prop
  | none : Opens s operation s
  | written (event : UsageEvent) (hresource : event.resource = operation)
      (haction : event.action = .adjust) (hpositive : 0 < event.amount) :
      Opens s operation (s.record event)

/-- What an outcome does with the reservation. -/
def Settles (s : GenerationTables) (job : GenerationJob) (outcome : ProviderOutcome)
    (s' : GenerationTables) : Prop :=
  match outcome.settlement with
  | none => s' = s
  | some (action, _) => Ends s job action s'

/-- Evidence may follow what is known of an attempt. -/
def Follows (before after : ProviderAcceptance) : Prop :=
  before = .pending ∨ before = .acceptance_unknown ∨ after = before

/-- **Everything an operation can do to the tables**; assets and costs are added beside. -/
inductive GenerationEffect (s : GenerationTables) : GenerationOperation → GenerationTables → Prop
  | kept (operation : GenerationOperation) : GenerationEffect s operation s
  | appended (input : AppendUsageEventInput) (event : UsageEvent)
      (hresource : event.resource = input.resource) (haction : event.action = input.action)
      (hamount : event.amount = input.amount) (hid : event.reservationId = input.reservationId)
      (hnamed : event.isReserveOf "" = false)
      (hrule : UsageRule (s.listUsageEvents input.resource) event) :
      GenerationEffect s (.appendUsageEvent input) (s.record event)
  | started (input : StartGenerationInput) (snapshot : RouteSnapshot) (job : GenerationJob)
      (hreservation :
        (s.reservationOf input.operation input.usageReservationId).isSome = true)
      (hopen : s.endOf input.operation input.usageReservationId = none)
      (hsnapshot : s.routeSnapshots.get? snapshot.id = none)
      (hnew : s.generationJobs.get? job.id = none) (hid : job.id = input.jobId)
      (hoperation : job.operation = input.operation)
      (husage : job.usageReservationId = input.usageReservationId)
      (hstatus : job.status = .queued) (hroute : job.routeSnapshotId = snapshot.id) :
      GenerationEffect s (.startGeneration input) { s with
        routeSnapshots := s.routeSnapshots.set snapshot.id snapshot
        generationJobs := s.generationJobs.set job.id job }
  | checkpointed (input : CheckpointIdentity) (opening : Option GenerationOpeningEntitlement)
      (s₁ s₂ : GenerationTables) (snapshots : OrderedMap String RouteSnapshot)
      (snapshot : RouteSnapshot) (job : GenerationJob) (attempt : ProviderAttempt)
      (hopens : Opens s input.operation s₁) (hreserves : CheckpointReserves s₁ input s₂)
      (hsnapshots : ∀ id found, s.routeSnapshots.get? id = some found →
        snapshots.get? id = some found)
      (hsnapshot : snapshots.get? job.routeSnapshotId = some snapshot)
      (hcontains : snapshot.contains attempt.deploymentId = true)
      (hnew : s.generationJobs.get? job.id = none) (hid : job.id = input.jobId)
      (hoperation : job.operation = input.operation)
      (husage : job.usageReservationId = input.usageReservationId)
      (hstatus : job.status = .running) (hfresh : s.attempts.get? attempt.id = none)
      (hjob : attempt.jobId = job.id) (hpending : attempt.acceptance = .pending) :
      GenerationEffect s (.checkpointGenerationAttempt input opening) { s with
        usageEvents := s₂.usageEvents
        routeSnapshots := snapshots
        generationJobs := s.generationJobs.set job.id job
        attempts := s.attempts.set attempt.id attempt }
  | opened (input : ProviderAttemptInput) (job : GenerationJob) (snapshot : RouteSnapshot)
      (attempt : ProviderAttempt) (now : String)
      (hjob : s.generationJobs.get? input.jobId = some job)
      (hstatus : job.status.isTerminal = false)
      (hsnapshot : s.routeSnapshots.get? job.routeSnapshotId = some snapshot)
      (hcontains : snapshot.contains attempt.deploymentId = true)
      (hprevious : checkPrevious snapshot (s.listProviderAttempts job.id) = .ok ())
      (hfresh : s.attempts.get? attempt.id = none) (hof : attempt.jobId = job.id)
      (hpending : attempt.acceptance = .pending) :
      GenerationEffect s (.checkpointProviderAttempt input) { s with
        attempts := s.attempts.set attempt.id attempt
        generationJobs := s.generationJobs.set job.id
          { job with status := .running, updatedAt := now } }
  | accepted (input : AttemptAcceptanceInput) (attempt updated : ProviderAttempt)
      (hattempt : s.attempts.get? input.attemptId = some attempt)
      (hpending : attempt.acceptance = .pending) (hid : updated.id = attempt.id)
      (hof : updated.jobId = attempt.jobId)
      (hdeployment : updated.deploymentId = attempt.deploymentId) :
      GenerationEffect s (.recordAttemptAcceptance input)
        { s with attempts := s.attempts.set updated.id updated }
  | settled (input : ProviderOutcomeSettlement) (attempt updated : ProviderAttempt)
      (job updatedJob : GenerationJob) (s₁ : GenerationTables) (costs : List ProviderCost)
      (assets : OrderedMap String OwnedAsset)
      (hattempt : s.attempts.get? input.attemptId = some attempt)
      (hjob : s.generationJobs.get? attempt.jobId = some job)
      (hstatus : job.status.isTerminal = false)
      (hfollows : Follows attempt.acceptance updated.acceptance)
      (hdelivered : input.outcome.jobStatus = .completed → updated.acceptance = .accepted)
      (hid : updated.id = attempt.id)
      (hof : updated.jobId = attempt.jobId)
      (hdeployment : updated.deploymentId = attempt.deploymentId)
      (hsettles : Settles s job input.outcome s₁) (hidJob : updatedJob.id = job.id)
      (hoperation : updatedJob.operation = job.operation)
      (husage : updatedJob.usageReservationId = job.usageReservationId)
      (hroute : updatedJob.routeSnapshotId = job.routeSnapshotId)
      (hupdated : updatedJob.status = input.outcome.jobStatus) :
      GenerationEffect s (.settleProviderOutcome input) { s with
        usageEvents := s₁.usageEvents
        attempts := s.attempts.set updated.id updated
        generationJobs := s.generationJobs.set updatedJob.id updatedJob
        providerCosts := costs
        assets }
  | received (input : AssetReceipt) (attempt : ProviderAttempt) (job : GenerationJob)
      (s₁ : GenerationTables) (assets : OrderedMap String OwnedAsset) (now : String)
      (hattempt : s.attempts.get? input.attemptId = some attempt)
      (hjob : s.generationJobs.get? input.jobId = some job) (hof : attempt.jobId = job.id)
      (haccepted : attempt.acceptance = .accepted) (hends : Ends s job .commit s₁) :
      GenerationEffect s (.recordAssetReceipt input) { s with
        usageEvents := s₁.usageEvents
        attempts := s.attempts.set attempt.id
          { attempt with status := .completed, updatedAt := now }
        generationJobs := s.generationJobs.set job.id
          { job with status := .completed, updatedAt := now }
        assets }
  | failed (input : JobReason) (job : GenerationJob) (s₁ : GenerationTables) (now : String)
      (hjob : s.generationJobs.get? input.jobId = some job)
      (hstatus : job.status ≠ .completed ∧ job.status ≠ .cancelled)
      (hends : Ends s job .refund s₁) :
      GenerationEffect s (.settleGenerationFailure input) { s with
        usageEvents := s₁.usageEvents
        generationJobs := s.generationJobs.set job.id
          { job with status := .failed, updatedAt := now } }
  | refunded (input : JobReason) (job : GenerationJob) (reservation event : UsageEvent)
      (hjob : s.generationJobs.get? input.jobId = some job)
      (hreservation : s.reservationOf job.operation job.usageReservationId = some reservation)
      (hopen : s.endOf job.operation job.usageReservationId = none)
      (hresource : event.resource = job.operation) (haction : event.action = .refund)
      (hid : event.reservationId = some job.usageReservationId)
      (hamount : event.amount = reservation.amount) :
      GenerationEffect s (.compensateCommittedUsage input) (s.record event)
  | compensated (input : JobReason) (job : GenerationJob)
      (reservation terminal event : UsageEvent)
      (hjob : s.generationJobs.get? input.jobId = some job)
      (hreservation : s.reservationOf job.operation job.usageReservationId = some reservation)
      (hended : s.endOf job.operation job.usageReservationId = some terminal)
      (hcommit : terminal.action = .commit)
      (hnew : (s.listUsageEvents job.operation).find? (·.id = event.id) = none)
      (heventId : event.id = "job:" ++ job.id ++ ":compensate:" ++ input.reason)
      (hresource : event.resource = job.operation) (haction : event.action = .compensate)
      (hid : event.reservationId = some job.usageReservationId)
      (hamount : event.amount = reservation.amount) :
      GenerationEffect s (.compensateCommittedUsage input) (s.record event)

/-! ## The writes of the store -/

theorem appendUsage_spec (event : UsageEvent) :
    Wp (appendUsage event) s (fun _ s' => s' = s.record event) (fun _ _ => True) := by
  simp only [appendUsage, wp_bind, wp_get, wp_ite, wp_throw, wp_set]
  exact ⟨fun _ => trivial, fun _ => rfl⟩

theorem insertRouteSnapshot_spec (snapshot : RouteSnapshot) :
    Wp (insertRouteSnapshot snapshot) s (fun _ s' => s.routeSnapshots.get? snapshot.id = none ∧
      s' = { s with routeSnapshots := s.routeSnapshots.set snapshot.id snapshot })
      (fun _ _ => True) := by
  simp only [insertRouteSnapshot, wp_bind, wp_get, wp_ite, wp_throw, wp_set]
  exact ⟨fun _ => trivial, fun h => ⟨Option.not_isSome_iff_eq_none.mp h, trivial⟩⟩

theorem insertGenerationJob_spec (job : GenerationJob) :
    Wp (insertGenerationJob job) s (fun _ s' => s.generationJobs.get? job.id = none ∧
      s' = { s with generationJobs := s.generationJobs.set job.id job }) (fun _ _ => True) := by
  simp only [insertGenerationJob, wp_bind, wp_get, wp_ite, wp_throw, wp_set]
  exact ⟨fun _ => trivial, fun h => ⟨Option.not_isSome_iff_eq_none.mp h, trivial⟩⟩

theorem updateGenerationJob_spec (job : GenerationJob) :
    Wp (updateGenerationJob job) s (fun _ s' =>
      s' = { s with generationJobs := s.generationJobs.set job.id job }) (fun _ _ => True) := by
  simp only [updateGenerationJob, wp_bind, wp_get, wp_ite, wp_throw, wp_set]
  exact ⟨fun _ => trivial, fun _ => trivial⟩

theorem insertProviderAttempt_spec (attempt : ProviderAttempt) :
    Wp (insertProviderAttempt attempt) s (fun _ s' => s.attempts.get? attempt.id = none ∧
      s' = { s with attempts := s.attempts.set attempt.id attempt }) (fun _ _ => True) := by
  simp only [insertProviderAttempt, wp_bind, wp_get, wp_ite, wp_throw, wp_set]
  exact ⟨fun _ => trivial, fun h => ⟨Option.not_isSome_iff_eq_none.mp h, trivial⟩⟩

theorem updateProviderAttempt_spec (attempt : ProviderAttempt) :
    Wp (updateProviderAttempt attempt) s (fun _ s' =>
      s' = { s with attempts := s.attempts.set attempt.id attempt }) (fun _ _ => True) := by
  simp only [updateProviderAttempt, wp_bind, wp_get, wp_ite, wp_throw, wp_set]
  exact ⟨fun _ => trivial, fun _ => trivial⟩

theorem storeProviderCost_spec (cost : ProviderCost) :
    Wp (storeProviderCost cost) s (fun _ s' => ∃ costs, s' = { s with providerCosts := costs })
      (fun _ _ => True) := by
  simp only [storeProviderCost, wp_bind, wp_get, wp_ite, wp_throw, wp_set]
  exact ⟨fun _ => trivial, fun _ => ⟨_, rfl⟩⟩

theorem insertOwnedAsset_spec (asset : OwnedAsset) :
    Wp (insertOwnedAsset asset) s (fun _ s' => ∃ assets, s' = { s with assets })
      (fun _ _ => True) := by
  simp only [insertOwnedAsset, wp_bind, wp_get, wp_ite, wp_throw, wp_set]
  exact ⟨fun _ => trivial, fun _ => ⟨_, rfl⟩⟩

theorem requireJob_spec (jobId : String) : Wp (requireJob jobId) s (fun job s' => s' = s ∧
    s.generationJobs.get? jobId = some job) (fun _ _ => True) := by
  simp only [requireJob, wp_bind, wp_get]
  split
  · rw [wp_throw]
    trivial
  · next job hjob =>
    rw [wp_pure]
    exact ⟨rfl, hjob⟩

theorem requireSnapshot_spec (id : String) : Wp (requireSnapshot id) s (fun snapshot s' =>
    s' = s ∧ s.routeSnapshots.get? id = some snapshot) (fun _ _ => True) := by
  simp only [requireSnapshot, wp_bind, wp_get]
  split
  · rw [wp_throw]
    trivial
  · next snapshot hsnapshot =>
    rw [wp_pure]
    exact ⟨rfl, hsnapshot⟩

theorem requireAttempt_spec (id : String) : Wp (requireAttempt id) s (fun attempt s' =>
    s' = s ∧ s.attempts.get? id = some attempt) (fun _ _ => True) := by
  simp only [requireAttempt, wp_bind, wp_get]
  split
  · rw [wp_throw]
    trivial
  · next attempt hattempt =>
    rw [wp_pure]
    exact ⟨rfl, hattempt⟩

/-! ## One operation at a time -/

variable {events : List UsageEvent}

theorem checkReserve_eq_ok {input : AppendUsageEventInput} (h : checkReserve events input = .ok ()) :
    ∃ id, input.reservationId = some id ∧ id ≠ "" ∧
      events.any (·.reservationId = some id) = false ∧
      input.amount ≤ (projectUsage events).available := by
  simp only [checkReserve, guard_eq_ok, last_guard_eq_ok] at h
  obtain ⟨hgiven, hnew, hroom⟩ := h
  cases hid : input.reservationId with
  | none => exact absurd (by rw [hid]; rfl) hgiven
  | some id =>
    rw [hid] at hgiven hnew
    exact ⟨id, rfl, hgiven, Bool.eq_false_iff.mpr hnew, not_lt.mp hroom⟩

/-- A resource that does not know a reservation has neither made nor ended it. -/
theorem find?_of_unknown {id : String} (h : events.any (·.reservationId = some id) = false) :
    events.find? (·.isReserveOf id) = none ∧ events.find? (·.isTerminalOf id) = none := by
  have hnot : ∀ event ∈ events, ¬ event.reservationId = some id := fun event hevent hid =>
    absurd (List.any_eq_true.mpr ⟨event, hevent, decide_eq_true hid⟩) (by rw [h]; nofun)
  constructor
  · exact List.find?_eq_none.mpr fun event hevent hreserve =>
      hnot event hevent (UsageEvent.isReserveOf_eq_true.mp hreserve).2
  · exact List.find?_eq_none.mpr fun event hevent hterminal =>
      hnot event hevent (UsageEvent.isTerminalOf_eq_true.mp hterminal).1

theorem checkTerminal_eq_ok {input : AppendUsageEventInput}
    (h : checkTerminal events input = .ok none) : ∃ id reservation,
      input.reservationId = some id ∧ events.find? (·.isReserveOf id) = some reservation ∧
      events.find? (·.isTerminalOf id) = none ∧
      (if input.action = .commit then 0 ≤ input.amount ∧ input.amount ≤ reservation.amount
        else reservation.amount = input.amount) := by
  rw [checkTerminal, guard_eq_ok] at h
  obtain ⟨hgiven, h⟩ := h
  cases hid : input.reservationId with
  | none => exact absurd (by rw [hid]; rfl) hgiven
  | some id =>
    rw [hid] at h
    dsimp only [Option.getD_some] at h
    split at h
    · exact (throw_ne_ok.mp h).elim
    · next reservation hreservation =>
      rw [guard_eq_ok, not_not] at h
      obtain ⟨hamount, h⟩ := h
      split at h
      · next hopen => exact ⟨id, reservation, rfl, hreservation, hopen, hamount⟩
      · rw [guard_eq_ok] at h
        exact nomatch pure_eq_ok.mp h.2

variable {context : GenerationContext} {now : String}

theorem appendUsageEvent_effect {input : AppendUsageEventInput} :
    Wp (appendUsageEvent context input now) s
      (fun _ s' => GenerationEffect s (.appendUsageEvent input) s') (fun _ _ => True) := by
  simp only [appendUsageEvent, wp_bind, wp_check, wp_ite, wp_throw, wp_get, wp_pure]
  refine ⟨fun _ _ => ⟨fun _ => trivial, fun hzero => ⟨fun _ => trivial, fun hsign => ?_⟩⟩,
    fun _ _ => trivial⟩
  have hwrite (hnamed : (input.event context now).isReserveOf "" = false)
      (hrule : UsageRule (s.listUsageEvents input.resource) (input.event context now)) :
      Wp (appendUsage (input.event context now)) s
        (fun _ s' => GenerationEffect s (.appendUsageEvent input) s') (fun _ _ => True) := by
    refine (appendUsage_spec _).mono (fun _ s' h => ?_) fun _ _ _ => trivial
    subst h
    exact .appended input (input.event context now) rfl rfl rfl rfl hnamed hrule
  have hnot (hreserve : input.action ≠ .reserve) :
      (input.event context now).isReserveOf "" = false :=
    decide_eq_false fun hboth => hreserve hboth.1
  refine ⟨fun hreserve => ⟨fun _ hcheck => ⟨fun hterminal => ?_, fun _ => ?_⟩,
    fun _ _ => trivial⟩, fun hreserve => ⟨fun hterminal => ⟨fun found hcheck => ?_,
      fun _ _ => trivial⟩, fun hterminal => hwrite (hnot hreserve) ?_⟩⟩
  · rw [hreserve] at hterminal
    cases hterminal
  · obtain ⟨id, hid, hname, hunknown, hroom⟩ := checkReserve_eq_ok hcheck
    obtain ⟨hnew, hopen⟩ := find?_of_unknown hunknown
    refine hwrite (decide_eq_false fun hboth => ?_) ?_
    · exact hname (Option.some.inj (hid.symm.trans hboth.2))
    refine .reserve id hreserve hid hnew hopen (lt_of_le_of_ne ?_ (Ne.symm hzero)) hroom
    exact not_lt.mp fun hneg => hsign ⟨by rw [hreserve]; rintro ⟨⟩, hneg⟩
  · cases found with
    | some existingTerminal =>
      rw [wp_pure]
      exact .kept _
    | none =>
      obtain ⟨id, reservation, hid, hreservation, hopen, hamount⟩ := checkTerminal_eq_ok hcheck
      simp only [wp_bind, wp_pure]
      refine hwrite (hnot hreserve) (.terminal id reservation hterminal hid hreservation hopen
        (fun (hcommit : input.action = .commit) => ?_)
        fun (hcommit : input.action ≠ .commit) => ?_)
      · rw [if_pos hcommit] at hamount
        exact hamount
      · rw [if_neg hcommit] at hamount
        exact hamount.symm
  · cases haction : input.action with
    | reserve => exact absurd haction hreserve
    | commit => exact absurd (by rw [haction]; rfl) hterminal
    | refund => exact absurd (by rw [haction]; rfl) hterminal
    | expire => exact absurd (by rw [haction]; rfl) hterminal
    | adjust => exact .adjust haction
    | compensate => exact .compensate haction

theorem startGeneration_effect {input : StartGenerationInput} :
    Wp (startGeneration context input now) s
      (fun _ s' => GenerationEffect s (.startGeneration input) s') (fun _ _ => True) := by
  simp only [startGeneration, wp_bind, wp_check, wp_get, wp_ite, wp_throw, wp_pure]
  refine ⟨fun _ _ => ⟨fun _ _ => ⟨fun _ => trivial, fun hactive => ?_⟩, fun _ _ => trivial⟩,
    fun _ _ => trivial⟩
  obtain ⟨hreservation, hopen⟩ := not_or.mp hactive
  refine (insertRouteSnapshot_spec _).mono (fun _ s₁ h => ?_) fun _ _ _ => trivial
  obtain ⟨hsnapshot, rfl⟩ := h
  refine (insertGenerationJob_spec _).mono (fun _ s₂ h => ?_) fun _ _ _ => trivial
  obtain ⟨hnew, rfl⟩ := h
  exact .started input _ (newJob context input.jobId input.operation input.routeSnapshot.id
    input.usageReservationId .queued now) (Option.isSome_iff_ne_none.mpr fun hnone =>
      hreservation (by rw [hnone]; rfl)) (Option.not_isSome_iff_eq_none.mp hopen) hsnapshot hnew
    rfl rfl rfl rfl rfl

/-! ### Checkpoints -/

theorem openEntitlement_spec {operation : UsageResource}
    {opening : Option GenerationOpeningEntitlement} :
    Wp (openEntitlement context operation opening now) s (fun _ s' => Opens s operation s')
      (fun _ _ => True) := by
  simp only [openEntitlement, wp_bind, wp_get]
  split
  · rw [wp_pure]
    exact .none
  · simp only [wp_ite, wp_bind, wp_throw, wp_pure]
    refine ⟨fun hopens => ⟨fun _ => trivial, fun _ => ?_⟩, fun _ => .none⟩
    refine (appendUsage_spec _).mono (fun _ s' h => ?_) fun _ _ _ => trivial
    subst h
    exact .written _ rfl rfl hopens.2

theorem reserveCheckpoint_spec {input : CheckpointIdentity} :
    Wp (reserveCheckpoint context input now) s
      (fun _ s' => CheckpointReserves s input s') (fun _ _ => True) := by
  simp only [reserveCheckpoint, wp_bind, wp_get, wp_ite, wp_throw]
  refine ⟨fun _ => trivial, fun hopen => ?_⟩
  have hopen := Option.not_isSome_iff_eq_none.mp hopen
  split
  · next reservation hreservation =>
    simp only [wp_ite, wp_throw, wp_pure]
    exact ⟨fun _ => trivial, fun _ => .held reservation hreservation hopen⟩
  · next hnone =>
    simp only [wp_ite, wp_bind, wp_throw, wp_pure]
    refine ⟨fun hpositive => ⟨fun _ => trivial, fun hroom => ?_⟩, fun _ => .free hnone hopen⟩
    refine (appendUsage_spec _).mono (fun _ s' h => ?_) fun _ _ _ => trivial
    subst h
    exact .made _ rfl rfl rfl rfl
      (.reserve input.usageReservationId rfl rfl hnone hopen hpositive (not_lt.mp hroom))

theorem freezeRoute_spec {facts : RouteFacts} :
    Wp (freezeRoute facts now) s (fun _ s' => ∃ snapshots snapshot,
      s' = { s with routeSnapshots := snapshots } ∧
      (∀ id found, s.routeSnapshots.get? id = some found → snapshots.get? id = some found) ∧
      snapshots.get? facts.id = some snapshot ∧ snapshot.toRouteFacts = facts)
      (fun _ _ => True) := by
  simp only [freezeRoute, wp_bind, wp_get]
  split
  · next existing hexisting =>
    simp only [wp_ite, wp_throw, wp_pure]
    refine ⟨fun _ => trivial, fun hsame => ⟨s.routeSnapshots, existing, rfl, fun _ _ h => h,
      hexisting, ?_⟩⟩
    exact of_decide_eq_true (not_not.mp hsame)
  · next hnone =>
    refine (insertRouteSnapshot_spec _).mono (fun _ s' h => ?_) fun _ _ _ => trivial
    obtain ⟨-, rfl⟩ := h
    refine ⟨_, { facts with createdAt := now }, rfl, fun id found hfound => ?_,
      OrderedMap.get?_set_self, rfl⟩
    have hne : id ≠ facts.id := by
      rintro rfl
      cases hnone.symm.trans hfound
    rw [OrderedMap.get?_set_ne hne, hfound]

/-- Only the usage events move while a checkpoint reserves. -/
theorem Opens.same {operation : UsageResource} (h : Opens s operation s') :
    s' = { s with usageEvents := s'.usageEvents } := by
  cases h <;> rfl

theorem CheckpointReserves.same {input : CheckpointIdentity} (h : CheckpointReserves s input s') :
    s' = { s with usageEvents := s'.usageEvents } := by
  cases h <;> rfl

theorem checkpointGenerationAttempt_effect {input : CheckpointIdentity}
    {opening : Option GenerationOpeningEntitlement} :
    Wp (checkpointGenerationAttempt context input opening now) s
      (fun _ s' => GenerationEffect s (.checkpointGenerationAttempt input opening) s')
      (fun _ _ => True) := by
  simp only [checkpointGenerationAttempt, wp_bind, wp_check, wp_ite, wp_throw, wp_pure]
  refine ⟨fun _ _ => ⟨fun _ _ => ⟨fun _ => trivial, fun _ => ?_⟩, fun _ _ => trivial⟩,
    fun _ _ => trivial⟩
  refine openEntitlement_spec.mono (fun _ s₁ hopens => ?_) fun _ _ _ => trivial
  refine reserveCheckpoint_spec.mono (fun _ s₂ hreserves => ?_) fun _ _ _ => trivial
  refine ⟨fun _ => trivial, fun hcontains => ?_⟩
  refine freezeRoute_spec.mono (fun _ s₃ h => ?_) fun _ _ _ => trivial
  obtain ⟨snapshots, snapshot, rfl, hsnapshots, hsnapshot, hfacts⟩ := h
  refine (insertGenerationJob_spec _).mono (fun _ s₄ h => ?_) fun _ _ _ => trivial
  obtain ⟨hnew, rfl⟩ := h
  refine (insertProviderAttempt_spec _).mono (fun _ s₅ h => ?_) fun _ _ _ => trivial
  obtain ⟨hfresh, rfl⟩ := h
  have hsame : s₂ = { s with usageEvents := s₂.usageEvents } :=
    hreserves.same.trans (by rw [hopens.same])
  rw [hsame] at hsnapshots hnew hfresh ⊢
  refine .checkpointed input opening s₁ s₂ snapshots snapshot _ _ hopens hreserves hsnapshots
    hsnapshot ?_ hnew rfl rfl rfl rfl hfresh rfl rfl
  rw [RouteFacts.contains, hfacts]
  exact not_not.mp hcontains

theorem checkpointProviderAttempt_effect {input : ProviderAttemptInput} :
    Wp (checkpointProviderAttempt context input now) s
      (fun _ s' => GenerationEffect s (.checkpointProviderAttempt input) s') (fun _ _ => True) := by
  simp only [checkpointProviderAttempt, wp_bind, wp_check]
  refine ⟨fun _ _ => (requireJob_spec _).mono (fun job s₁ h => ?_) fun _ _ _ => trivial,
    fun _ _ => trivial⟩
  obtain ⟨rfl, hjob⟩ := h
  simp only [wp_ite, wp_throw, wp_bind]
  refine ⟨fun _ => trivial, fun hstatus => (requireSnapshot_spec _).mono (fun snapshot s₁ h => ?_)
    fun _ _ _ => trivial⟩
  obtain ⟨rfl, hsnapshot⟩ := h
  split
  · simp only [wp_bind, wp_throw]
  · next candidate hcandidate =>
    simp only [wp_ite, wp_throw, wp_pure, wp_bind, wp_get, wp_check]
    refine ⟨fun _ => trivial, fun _ => ⟨fun _ hprevious => ?_, fun _ _ => trivial⟩⟩
    refine (insertProviderAttempt_spec _).mono (fun _ s₂ h => ?_) fun _ _ _ => trivial
    obtain ⟨hfresh, rfl⟩ := h
    refine (updateGenerationJob_spec _).mono (fun _ s₃ h => ?_) fun _ _ _ => trivial
    subst h
    refine .opened input job snapshot _ now hjob (Bool.eq_false_iff.mpr hstatus) hsnapshot ?_
      hprevious hfresh rfl rfl
    have hof := List.find?_some hcandidate
    exact List.any_eq_true.mpr ⟨candidate, List.mem_of_find?_eq_some hcandidate, hof⟩

/-! ### What comes back -/

theorem recordAttemptAcceptance_effect {input : AttemptAcceptanceInput} :
    Wp (recordAttemptAcceptance context input now) s
      (fun _ s' => GenerationEffect s (.recordAttemptAcceptance input) s') (fun _ _ => True) := by
  simp only [recordAttemptAcceptance, wp_bind, wp_check]
  refine ⟨fun _ _ => (requireAttempt_spec _).mono (fun attempt s₁ h => ?_) fun _ _ _ => trivial,
    fun _ _ => trivial⟩
  obtain ⟨rfl, hattempt⟩ := h
  simp only [wp_ite, wp_throw, wp_pure, wp_bind]
  refine ⟨fun _ => ⟨fun _ => .kept _, fun _ => trivial⟩, fun hpending => ?_⟩
  refine (updateProviderAttempt_spec _).mono (fun _ s₂ h => ?_) fun _ _ _ => trivial
  subst h
  exact .accepted input attempt _ hattempt (not_not.mp hpending) rfl rfl rfl

variable {job : GenerationJob} {action : UsageAction}

theorem settleUsageReservation_spec {reason : String} :
    Wp (settleUsageReservation context job action reason now) s
      (fun _ s' => Ends s job action s') (fun _ _ => True) := by
  simp only [settleUsageReservation, wp_bind, wp_get]
  split
  · next hnone =>
    simp only [wp_ite, wp_throw, wp_pure]
    exact ⟨fun _ => trivial, fun hzero => .nothing hnone (not_not.mp hzero)⟩
  · next reservation hreservation =>
    split
    · next terminal hended =>
      simp only [wp_ite, wp_throw, wp_pure]
      exact ⟨fun _ => trivial, fun haction => .before terminal hended (not_not.mp haction)⟩
    · next hopen =>
      refine (appendUsage_spec _).mono (fun _ s' h => ?_) fun _ _ _ => trivial
      subst h
      exact .now reservation _ hreservation hopen rfl rfl rfl rfl

theorem endReservation_spec {eventId reason otherwise : String} :
    Wp (endReservation context job action eventId reason now otherwise) s
      (fun _ s' => Ends s job action s') (fun _ _ => True) := by
  simp only [endReservation, wp_bind, wp_get, wp_ite, wp_throw]
  refine ⟨fun _ => trivial, fun hnot => ?_⟩
  split
  · next terminal hended =>
    simp only [wp_ite, wp_throw, wp_pure]
    exact ⟨fun _ => trivial, fun haction => .before terminal hended (not_not.mp haction)⟩
  · next reservation hopen hreservation =>
    refine (appendUsage_spec _).mono (fun _ s' h => ?_) fun _ _ _ => trivial
    subst h
    exact .now reservation _ hreservation hopen rfl rfl rfl rfl
  · next hopen hnone =>
    rw [wp_pure]
    refine .nothing hnone (not_not.mp fun hzero => hnot ⟨?_, hzero⟩)
    rw [hnone]
    rfl

variable {input : ProviderOutcomeSettlement} {attempt : ProviderAttempt}

theorem checkEvidence_eq_ok (h : checkEvidence attempt input = .ok ()) :
    Follows attempt.acceptance input.acceptance := by
  rw [checkEvidence] at h
  split at h
  · exact (throw_ne_ok.mp h).elim
  · next hnot =>
    by_contra hfollows
    simp only [Follows, not_or] at hfollows
    exact hnot ⟨hfollows.1, fun hresolves => hfollows.2.1 hresolves.1,
      fun hrepeats => hfollows.2.2 hrepeats.1.symm⟩

theorem checkOutcome_eq_ok (h : checkOutcome input = .ok ())
    (hcompleted : input.outcome.jobStatus = .completed) : input.acceptance = .accepted := by
  rw [checkOutcome.eq_def] at h
  split at h
  · split at h
    · exact (throw_ne_ok.mp h).elim
    · next haccepted => exact not_not.mp haccepted
  · next hunknown => exact nomatch hunknown ▸ hcompleted
  · next hnot _ =>
    cases houtcome : input.outcome with
    | completed asset => exact absurd houtcome (hnot asset)
    | retryable_rejection => exact nomatch houtcome ▸ hcompleted
    | failed => exact nomatch houtcome ▸ hcompleted
    | unknown => exact nomatch houtcome ▸ hcompleted

variable {outcome : ProviderOutcome}

theorem assertMonotonicProviderOutcome_eq_ok
    (h : assertMonotonicProviderOutcome job outcome = .ok ()) : job.status.isTerminal = false := by
  refine Bool.eq_false_iff.mpr fun hterminal => ?_
  rw [assertMonotonicProviderOutcome.eq_def, if_pos hterminal] at h
  exact throw_ne_ok.mp h

/-- Only the assets move while a delivery is checked. -/
theorem deliverAsset_spec {receipt : Option AssetReceipt} :
    Wp (deliverAsset context job attempt receipt now) s
      (fun _ s' => ∃ assets, s' = { s with assets }) (fun _ _ => True) := by
  rw [deliverAsset.eq_def]
  split
  · simp only [wp_ite, wp_throw, wp_pure]
    exact ⟨fun _ => trivial, fun _ => ⟨s.assets, rfl⟩⟩
  · simp only [wp_ite, wp_bind, wp_throw]
    exact ⟨fun _ => trivial, fun _ => insertOwnedAsset_spec _⟩

theorem Ends.same (h : Ends s job action s') : s' = { s with usageEvents := s'.usageEvents } := by
  cases h <;> rfl

/-- What the usage events say does not depend on the tables beside them. -/
theorem Ends.of_events {t : GenerationTables} (hevents : t.usageEvents = s.usageEvents)
    (h : Ends t job action s') :
    ∃ s₁, Ends s job action s₁ ∧ s' = { t with usageEvents := s₁.usageEvents } := by
  have hlist (resource : UsageResource) : t.listUsageEvents resource = s.listUsageEvents resource :=
    congrArg (List.filter _) hevents
  have hreservation (resource : UsageResource) (id : String) :
      t.reservationOf resource id = s.reservationOf resource id :=
    congrArg (List.find? _) (hlist resource)
  have hend (resource : UsageResource) (id : String) : t.endOf resource id = s.endOf resource id :=
    congrArg (List.find? _) (hlist resource)
  cases h with
  | nothing hnone hzero =>
    exact ⟨s, .nothing (hreservation _ _ ▸ hnone) hzero, by rw [← hevents]⟩
  | before terminal hended haction =>
    exact ⟨s, .before terminal (hend _ _ ▸ hended) haction, by rw [← hevents]⟩
  | now reservation event hreserved hopen hresource haction hid hamount =>
    refine ⟨s.record event, .now reservation event (hreservation _ _ ▸ hreserved)
      (hend _ _ ▸ hopen) hresource haction hid hamount, ?_⟩
    rw [record, record, hevents]

/-- The reservation with the outcome, on tables of the same usage. -/
theorem settleOutcome_spec {t : GenerationTables} (hevents : t.usageEvents = s.usageEvents) :
    Wp (settleOutcome context job outcome now) t
      (fun _ s' => ∃ s₁, Settles s job outcome s₁ ∧
        s' = { t with usageEvents := s₁.usageEvents }) (fun _ _ => True) := by
  rw [settleOutcome]
  cases hsettlement : outcome.settlement with
  | none =>
    rw [wp_pure]
    refine ⟨s, ?_, by rw [← hevents]⟩
    rw [Settles, hsettlement]
  | some settlement =>
    obtain ⟨action, reason⟩ := settlement
    refine settleUsageReservation_spec.mono (fun _ s' h => ?_) fun _ _ _ => trivial
    obtain ⟨s₁, hends, hs'⟩ := h.of_events hevents
    refine ⟨s₁, ?_, hs'⟩
    rw [Settles, hsettlement]
    exact hends

theorem deliverOutcome_spec : Wp (deliverOutcome context job attempt outcome now) s
      (fun _ s' => ∃ assets, s' = { s with assets }) (fun _ _ => True) := by
  rw [deliverOutcome.eq_def]
  split
  · exact deliverAsset_spec
  · rw [wp_pure]
    exact ⟨s.assets, rfl⟩

theorem settleProviderOutcome_effect : Wp (settleProviderOutcome context input now) s
      (fun _ s' => GenerationEffect s (.settleProviderOutcome input) s') (fun _ _ => True) := by
  simp only [settleProviderOutcome, wp_bind, wp_check]
  refine ⟨fun _ _ => (requireAttempt_spec _).mono (fun attempt s₁ h => ?_) fun _ _ _ => trivial,
    fun _ _ => trivial⟩
  obtain ⟨rfl, hattempt⟩ := h
  refine (requireJob_spec _).mono (fun job s₁ h => ?_) fun _ _ _ => trivial
  obtain ⟨rfl, hjob⟩ := h
  simp only [wp_ite, wp_throw, wp_bind, wp_check]
  refine ⟨fun _ => trivial, fun _ => ⟨fun _ hmonotonic => ⟨fun _ hevidence => ⟨fun _ _ =>
    ⟨fun _ houtcome => ?_, fun _ _ => trivial⟩, fun _ _ => trivial⟩, fun _ _ => trivial⟩,
    fun _ _ => trivial⟩⟩
  refine (storeProviderCost_spec _).mono (fun _ s₂ h => ?_) fun _ _ _ => trivial
  obtain ⟨costs, rfl⟩ := h
  refine deliverOutcome_spec.mono (fun _ s₂ h => ?_) fun _ _ _ => trivial
  obtain ⟨assets, rfl⟩ := h
  refine (updateProviderAttempt_spec _).mono (fun _ s₂ h => ?_) fun _ _ _ => trivial
  subst h
  refine Wp.mono (settleOutcome_spec (s := s₁) ?_) (fun _ s₃ h => ?_) fun _ _ _ => trivial
  · rfl
  obtain ⟨s₄, hsettles, rfl⟩ := h
  refine (updateGenerationJob_spec _).mono (fun _ s₅ h => ?_) fun _ _ _ => trivial
  subst h
  rw [wp_pure]
  exact .settled input attempt (input.updatedAttempt attempt now) job (input.updatedJob job now) s₄
    costs assets hattempt hjob (assertMonotonicProviderOutcome_eq_ok hmonotonic)
    (checkEvidence_eq_ok hevidence) (checkOutcome_eq_ok houtcome) rfl rfl rfl hsettles rfl rfl rfl
    rfl rfl

theorem recordAssetReceipt_effect {input : AssetReceipt} :
    Wp (recordAssetReceipt context input now) s
      (fun _ s' => GenerationEffect s (.recordAssetReceipt input) s') (fun _ _ => True) := by
  simp only [recordAssetReceipt, wp_bind, wp_check]
  refine ⟨fun _ _ => (requireJob_spec _).mono (fun job s₁ h => ?_) fun _ _ _ => trivial,
    fun _ _ => trivial⟩
  obtain ⟨rfl, hjob⟩ := h
  rw [wp_get]
  split
  · rw [wp_throw]
    trivial
  · next attempt hfound =>
    obtain ⟨hattempt, haccepted⟩ := Option.filter_eq_some_iff.mp hfound
    obtain ⟨hof, haccepted⟩ := of_decide_eq_true haccepted
    simp only [wp_ite, wp_throw, wp_bind, wp_pure]
    refine ⟨fun _ => trivial, fun _ => (insertOwnedAsset_spec _).mono (fun _ s₂ h => ?_)
      fun _ _ _ => trivial⟩
    obtain ⟨assets, rfl⟩ := h
    refine (updateProviderAttempt_spec _).mono (fun _ s₂ h => ?_) fun _ _ _ => trivial
    subst h
    refine (updateGenerationJob_spec _).mono (fun _ s₂ h => ?_) fun _ _ _ => trivial
    subst h
    refine endReservation_spec.mono (fun _ s₂ h => ?_) fun _ _ _ => trivial
    obtain ⟨s₃, hends, rfl⟩ := Ends.of_events (s := s₁) (by rfl) h
    exact .received input attempt job s₃ assets now hattempt hjob hof haccepted hends

theorem settleGenerationFailure_effect {input : JobReason} :
    Wp (settleGenerationFailure context input now) s
      (fun _ s' => GenerationEffect s (.settleGenerationFailure input) s') (fun _ _ => True) := by
  simp only [settleGenerationFailure, wp_bind, wp_check]
  refine ⟨fun _ _ => (requireJob_spec _).mono (fun job s₁ h => ?_) fun _ _ _ => trivial,
    fun _ _ => trivial⟩
  obtain ⟨rfl, hjob⟩ := h
  simp only [wp_ite, wp_throw, wp_bind, wp_pure]
  refine ⟨fun _ => trivial, fun hstatus => ?_⟩
  refine endReservation_spec.mono (fun _ s₂ hends => ?_) fun _ _ _ => trivial
  refine (updateGenerationJob_spec _).mono (fun _ s₃ h => ?_) fun _ _ _ => trivial
  subst h
  rw [hends.same]
  exact .failed input job s₂ now hjob (not_or.mp hstatus) hends

theorem compensateCommittedUsage_effect {input : JobReason} :
    Wp (compensateCommittedUsage context input now) s
      (fun _ s' => GenerationEffect s (.compensateCommittedUsage input) s') (fun _ _ => True) := by
  simp only [compensateCommittedUsage, wp_bind, wp_check]
  refine ⟨fun _ _ => (requireJob_spec _).mono (fun job s₁ h => ?_) fun _ _ _ => trivial,
    fun _ _ => trivial⟩
  obtain ⟨rfl, hjob⟩ := h
  rw [wp_get]
  split
  · simp only [wp_ite, wp_throw, wp_pure]
    exact ⟨fun _ => .kept _, fun _ => trivial⟩
  · next reservation hreservation =>
    split
    · next hopen =>
      simp only [wp_bind, wp_pure]
      refine (appendUsage_spec _).mono (fun _ s' h => ?_) fun _ _ _ => trivial
      subst h
      exact .refunded input job reservation _ hjob hreservation hopen rfl rfl rfl rfl
    · next terminal hended =>
      simp only [wp_ite, wp_pure]
      refine ⟨fun hcommit => ?_, fun _ => .kept _⟩
      simp only [compensate, wp_bind, wp_get]
      split
      · rw [wp_pure]
        exact .kept _
      · next hnew =>
        simp only [wp_bind, wp_pure]
        refine (appendUsage_spec _).mono (fun _ s' h => ?_) fun _ _ _ => trivial
        subst h
        exact .compensated input job reservation terminal _ hjob hreservation hended hcommit hnew
          rfl rfl rfl rfl rfl

/-- **What a command does is one of the effects**, unless it throws. -/
theorem action_effect (command : GenerationCommand) : Wp command.action s
    (fun _ s' => GenerationEffect s command.operation s') (fun _ _ => True) := by
  obtain ⟨context, key, now, operation⟩ := command
  rw [GenerationCommand.action.eq_def]
  cases operation with
  | appendUsageEvent input =>
    rw [wp_map]
    exact appendUsageEvent_effect
  | startGeneration input =>
    rw [wp_map]
    exact startGeneration_effect
  | checkpointGenerationAttempt input opening =>
    rw [wp_map]
    exact checkpointGenerationAttempt_effect
  | checkpointProviderAttempt input =>
    rw [wp_map]
    exact checkpointProviderAttempt_effect
  | recordAttemptAcceptance input =>
    rw [wp_map]
    exact recordAttemptAcceptance_effect
  | settleProviderOutcome input =>
    rw [wp_map]
    exact settleProviderOutcome_effect
  | recordAssetReceipt input =>
    rw [wp_map]
    exact recordAssetReceipt_effect
  | settleGenerationFailure input =>
    rw [wp_map]
    exact settleGenerationFailure_effect
  | compensateCommittedUsage input =>
    rw [wp_map]
    exact compensateCommittedUsage_effect

/-- **A command does one of the effects to the tables**: a replay and a throw leave them alone. -/
theorem effect_of_step (payloadHash : GenerationPayload → String)
    (repository : GenerationRepository) (command : GenerationCommand) :
    GenerationEffect repository.tables command.operation
      (repository.step payloadHash command).tables := by
  have hstep : Wp (GenerationRepository.executeIdempotent command.idempotencyKey
      (payloadHash command.operation.payload) command.action) repository
      (fun _ repository' => GenerationEffect repository.tables command.operation
        repository'.tables) (fun _ repository' => GenerationEffect repository.tables
          command.operation repository'.tables) := by
    simp only [GenerationRepository.executeIdempotent, wp_bind, wp_get]
    split
    · simp only [wp_ite, wp_bind, wp_throw, wp_pure]
      exact ⟨fun _ => .kept _, fun _ => .kept _⟩
    · simp only [wp_bind, wp_transaction, wp_zoom, wp_modify, wp_pure]
      exact (action_effect command).mono (fun _ _ h => h) fun _ _ _ => .kept _
  exact wp_final.mp hstep

/-- **A replay leaves the tables alone.** -/
theorem tables_of_replay (payloadHash : GenerationPayload → String)
    {repository : GenerationRepository} {command : GenerationCommand}
    (h : (repository.commandResults.get? command.idempotencyKey).isSome = true) :
    (repository.step payloadHash command).tables = repository.tables := by
  obtain ⟨existing, hexisting⟩ := Option.isSome_iff_exists.mp h
  have hstep : Wp (GenerationRepository.executeIdempotent command.idempotencyKey
      (payloadHash command.operation.payload) command.action) repository
      (fun _ repository' => repository'.tables = repository.tables)
      (fun _ repository' => repository'.tables = repository.tables) := by
    simp only [GenerationRepository.executeIdempotent, wp_bind, wp_get]
    rw [hexisting]
    simp only [wp_ite, wp_bind, wp_throw, wp_pure]
    exact ⟨fun _ => trivial, fun _ => trivial⟩
  exact wp_final.mp hstep

end MeiyeAgent
