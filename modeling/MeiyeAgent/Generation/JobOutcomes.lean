import MeiyeAgent.Generation.AttemptsOnce

/-!
# Generation/JobOutcomes — a job and its reservation agree

A reservation is open, or has ended once; a job runs, or has one final status.  The two move in one
transaction, as long as nothing else moves either:

* `KeepsOutcomes` — **what a call keeps to**: a reservation is ended for the one job that holds it,
  a failed job is not delivered to, an attempt that was superseded fails nothing, and a compensation
  waits for the end.
* `OutcomesSound` — the invariant of such calls.
* `outcomesAgree_run` — **a run of such calls agrees**, and the counterexample is one that delivers
  to a failed job.
-/

namespace MeiyeAgent

open Effect GenerationTables

variable {s s' : GenerationTables} {resource : UsageResource} {reservationId : String}

/-! ## Reservations over a step -/

namespace GenerationTables

/-- Every event that ended a reservation. -/
def endsOf (s : GenerationTables) (resource : UsageResource) (reservationId : String) :
    List UsageEvent :=
  (s.listUsageEvents resource).filter (·.isTerminalOf reservationId)

/-- A reservation is open: it was made, and has not ended. -/
def isOpen (s : GenerationTables) (resource : UsageResource) (reservationId : String) : Bool :=
  (s.reservationOf resource reservationId).isSome ∧ (s.endOf resource reservationId).isNone

theorem endOf_eq_head? : s.endOf resource reservationId = (s.endsOf resource reservationId).head? :=
  List.head?_filter.symm

theorem isOpen_eq_true : s.isOpen resource reservationId = true ↔
    (s.reservationOf resource reservationId).isSome = true ∧
      s.endOf resource reservationId = none := by
  rw [isOpen, decide_eq_true_iff, Option.isNone_iff_eq_none]

theorem reservationOf_record (event : UsageEvent) :
    (s.record event).reservationOf resource reservationId =
      (s.reservationOf resource reservationId).or
        (if event.resource = resource ∧ event.isReserveOf reservationId = true
          then some event else none) := by
  rw [reservationOf, listUsageEvents_record, List.find?_append, reservationOf]
  congr 1
  split
  · next hresource =>
    rw [List.find?_singleton]
    simp only [hresource, true_and]
  · next hresource => rw [if_neg fun h => hresource h.1, List.find?_nil]

theorem endsOf_record (event : UsageEvent) : (s.record event).endsOf resource reservationId =
    s.endsOf resource reservationId ++
      if event.resource = resource ∧ event.isTerminalOf reservationId = true then [event]
      else [] := by
  rw [endsOf, listUsageEvents_record, List.filter_append, endsOf]
  congr 1
  split
  · next hresource =>
    by_cases hterminal : event.isTerminalOf reservationId = true
    · rw [List.filter_cons_of_pos hterminal, List.filter_nil, if_pos ⟨hresource, hterminal⟩]
    · rw [List.filter_cons_of_neg hterminal, List.filter_nil, if_neg fun h => hterminal h.2]
  · next hresource => rw [if_neg fun h => hresource h.1, List.filter_nil]

end GenerationTables

/-- **What happens to the reservations**: nothing, or one is made, or an open one is ended. -/
inductive ReservationMove (s : GenerationTables) (resource : UsageResource) (id : String)
    (s' : GenerationTables) : Prop
  | same
      (hreservation : ∀ resource id, s'.reservationOf resource id = s.reservationOf resource id)
      (hends : ∀ resource id, s'.endsOf resource id = s.endsOf resource id) :
      ReservationMove s resource id s'
  | made (hopen : s.endOf resource id = none)
      (hothers : ∀ resource' id', ¬ (resource' = resource ∧ id' = id) →
        s'.reservationOf resource' id' = s.reservationOf resource' id')
      (hmade : (s'.reservationOf resource id).isSome = true)
      (hends : ∀ resource id, s'.endsOf resource id = s.endsOf resource id) :
      ReservationMove s resource id s'
  | ended (event : UsageEvent) (hopen : s.isOpen resource id = true)
      (hreservation : ∀ resource id, s'.reservationOf resource id = s.reservationOf resource id)
      (hothers : ∀ resource' id', ¬ (resource' = resource ∧ id' = id) →
        s'.endsOf resource' id' = s.endsOf resource' id')
      (hended : s'.endsOf resource id = [event]) : ReservationMove s resource id s'

variable {event : UsageEvent}

/-- An event that reserves nothing leaves the reservations. -/
theorem reservationOf_record_of_ne (h : event.action ≠ .reserve) :
    (s.record event).reservationOf resource reservationId =
      s.reservationOf resource reservationId := by
  rw [reservationOf_record, if_neg, Option.or_none]
  exact fun hreserve => h (UsageEvent.isReserveOf_eq_true.mp hreserve.2).1

/-- An event that is not terminal ends nothing. -/
theorem endsOf_record_of_not (h : event.action.isTerminal = false) :
    (s.record event).endsOf resource reservationId = s.endsOf resource reservationId := by
  rw [endsOf_record, if_neg, List.append_nil]
  exact fun hterminal => nomatch h.symm.trans (UsageEvent.isTerminalOf_eq_true.mp hterminal.2).2

/-- `adjust` and `compensate` do not move the reservations. -/
theorem ReservationMove.allowance (hreserve : event.action ≠ .reserve)
    (hterminal : event.action.isTerminal = false) :
    ReservationMove s resource reservationId (s.record event) :=
  .same (fun _ _ => reservationOf_record_of_ne hreserve) fun _ _ => endsOf_record_of_not hterminal

theorem ReservationMove.reserve (hresource : event.resource = resource)
    (haction : event.action = .reserve) (hid : event.reservationId = some reservationId)
    (hopen : s.endOf resource reservationId = none) :
    ReservationMove s resource reservationId (s.record event) := by
  refine .made hopen (fun resource' id' hother => ?_) ?_ fun _ _ =>
    endsOf_record_of_not (by rw [haction]; rfl)
  · rw [reservationOf_record, if_neg, Option.or_none]
    refine fun h => hother ⟨h.1.symm.trans hresource, ?_⟩
    have hid' := (UsageEvent.isReserveOf_eq_true.mp h.2).2
    exact Option.some.inj (hid'.symm.trans hid)
  · rw [reservationOf_record, if_pos ⟨hresource, UsageEvent.isReserveOf_eq_true.mpr ⟨haction, hid⟩⟩]
    cases s.reservationOf resource reservationId <;> rfl

theorem ReservationMove.terminal (hresource : event.resource = resource)
    (haction : event.action.isTerminal = true) (hid : event.reservationId = some reservationId)
    (hopen : s.isOpen resource reservationId = true) :
    ReservationMove s resource reservationId (s.record event) := by
  refine .ended event hopen (fun _ _ => reservationOf_record_of_ne ?_)
    (fun resource' id' hother => ?_) ?_
  · rintro hreserve
    rw [hreserve] at haction
    exact nomatch haction
  · rw [endsOf_record, if_neg, List.append_nil]
    refine fun h => hother ⟨h.1.symm.trans hresource, ?_⟩
    have hid' := (UsageEvent.isTerminalOf_eq_true.mp h.2).1
    exact Option.some.inj (hid'.symm.trans hid)
  · have hnone := (isOpen_eq_true.mp hopen).2
    rw [endOf_eq_head?, List.head?_eq_none_iff] at hnone
    rw [endsOf_record, hnone,
      if_pos ⟨hresource, UsageEvent.isTerminalOf_eq_true.mpr ⟨hid, haction⟩⟩, List.nil_append]

/-- The reservations an append moves. -/
theorem UsageRule.move (h : UsageRule (s.listUsageEvents event.resource) event) :
    ReservationMove s event.resource (event.reservationId.getD "") (s.record event) := by
  cases h with
  | adjust haction => exact .allowance (by rw [haction]; nofun) (by rw [haction]; rfl)
  | compensate haction => exact .allowance (by rw [haction]; nofun) (by rw [haction]; rfl)
  | reserve id haction hid _ hopen =>
    rw [hid]
    exact .reserve rfl haction hid hopen
  | terminal id reservation haction hid hreservation hopen =>
    rw [hid]
    exact .terminal rfl haction hid (isOpen_eq_true.mpr
      ⟨Option.isSome_iff_exists.mpr ⟨reservation, hreservation⟩, hopen⟩)

/-! ## Reservations are ended once -/

/-- **A reservation ends once**, and only what was made ends. -/
structure ReservationsSound (s : GenerationTables) : Prop where
  once : ∀ resource id, (s.endsOf resource id).length ≤ 1
  reserved : ∀ resource id, s.endsOf resource id ≠ [] →
    (s.reservationOf resource id).isSome = true

theorem ReservationsSound.empty : ReservationsSound .empty where
  once _ _ := Nat.zero_le _
  reserved _ _ h := absurd rfl h

theorem ReservationsSound.move (h : ReservationsSound s)
    (hmove : ReservationMove s resource reservationId s') : ReservationsSound s' := by
  cases hmove with
  | same hreservation hends =>
    refine ⟨fun resource id => hends resource id ▸ h.once resource id, fun resource id hne => ?_⟩
    rw [hreservation]
    exact h.reserved resource id (hends resource id ▸ hne)
  | made hopen hothers hmade hends =>
    refine ⟨fun resource id => hends resource id ▸ h.once resource id, fun resource' id' hne => ?_⟩
    by_cases hsame : resource' = resource ∧ id' = reservationId
    · rw [hsame.1, hsame.2]
      exact hmade
    · rw [hothers resource' id' hsame]
      exact h.reserved resource' id' (hends resource' id' ▸ hne)
  | ended event hopen hreservation hothers hended =>
    refine ⟨fun resource' id' => ?_, fun resource' id' hne => ?_⟩
    · by_cases hsame : resource' = resource ∧ id' = reservationId
      · rw [hsame.1, hsame.2, hended]
        exact Nat.le_refl 1
      · rw [hothers resource' id' hsame]
        exact h.once resource' id'
    · rw [hreservation]
      by_cases hsame : resource' = resource ∧ id' = reservationId
      · rw [hsame.1, hsame.2]
        exact (isOpen_eq_true.mp hopen).1
      · exact h.reserved resource' id' (hothers resource' id' hsame ▸ hne)

/-! ## A job and its reservation -/

/-- The status a job ends in with its reservation. -/
def UsageAction.outcome : UsageAction → Option GenerationStatus
  | .commit => some .completed
  | .refund => some .failed
  | _ => none

variable {action : UsageAction} {status : GenerationStatus}

theorem UsageAction.outcome_isTerminal (h : action.outcome = some status) :
    status.isTerminal = true := by
  cases action with
  | commit => exact Option.some.inj h ▸ rfl
  | refund => exact Option.some.inj h ▸ rfl
  | _ => exact nomatch h

/-- The job holds the reservation. -/
def GenerationJob.holds (job : GenerationJob) (resource : UsageResource) (reservationId : String) :
    Prop := job.operation = resource ∧ job.usageReservationId = reservationId

instance (job : GenerationJob) (resource : UsageResource) (reservationId : String) :
    Decidable (job.holds resource reservationId) := inferInstanceAs (Decidable (_ ∧ _))

/-- **A job agrees with its reservation**, when it has one. -/
def JobAgrees (s : GenerationTables) (job : GenerationJob) : Prop :=
  (s.reservationOf job.operation job.usageReservationId).isSome = true →
    match s.endOf job.operation job.usageReservationId with
    | none => job.status.isTerminal = false
    | some terminal => terminal.action.outcome = some job.status

variable {job : GenerationJob}

theorem JobAgrees.of_none (hnone : s.reservationOf job.operation job.usageReservationId = none) :
    JobAgrees s job := by
  intro hsome
  rw [hnone] at hsome
  exact nomatch hsome

theorem JobAgrees.of_open (hopen : s.endOf job.operation job.usageReservationId = none)
    (hstatus : job.status.isTerminal = false) : JobAgrees s job := by
  intro _
  rw [hopen]
  exact hstatus

theorem JobAgrees.of_ended (terminal : UsageEvent)
    (hended : s.endOf job.operation job.usageReservationId = some terminal)
    (hstatus : terminal.action.outcome = some job.status) : JobAgrees s job := by
  intro _
  rw [hended]
  exact hstatus

/-- What a job agrees with is its own reservation. -/
theorem JobAgrees.same (h : JobAgrees s job)
    (hreservation : s'.reservationOf job.operation job.usageReservationId =
      s.reservationOf job.operation job.usageReservationId)
    (hends : s'.endsOf job.operation job.usageReservationId =
      s.endsOf job.operation job.usageReservationId) : JobAgrees s' job := by
  rw [JobAgrees, hreservation, endOf_eq_head?, hends, ← endOf_eq_head?]
  exact h

/-- A job is not told of the reservations of others. -/
theorem JobAgrees.elsewhere (h : JobAgrees s job)
    (hmove : ReservationMove s resource reservationId s')
    (hother : ¬ job.holds resource reservationId) : JobAgrees s' job := by
  cases hmove with
  | same hreservation hends => exact h.same (hreservation _ _) (hends _ _)
  | made _ hothers _ hends => exact h.same (hothers _ _ hother) (hends _ _)
  | ended _ _ hreservation hothers => exact h.same (hreservation _ _) (hothers _ _ hother)

/-! ## The side condition -/

namespace GenerationTables

/-- The jobs that hold a reservation. -/
def holders (s : GenerationTables) (resource : UsageResource) (reservationId : String) :
    List GenerationJob :=
  s.generationJobs.values.filter (·.holds resource reservationId)

/-- A newer attempt of the job has taken this one's place. -/
def superseded (s : GenerationTables) (attempt : ProviderAttempt) : Bool :=
  (s.listProviderAttempts attempt.jobId).getLast?.any (·.id ≠ attempt.id)

/-- The job may end its reservation: while that is open, no other job holds it. -/
def endsAlone (s : GenerationTables) (job : GenerationJob) : Bool :=
  s.isOpen job.operation job.usageReservationId →
    (s.holders job.operation job.usageReservationId).all (·.id = job.id)

end GenerationTables

/-- **What a call keeps to**, in the tables it finds: an end is for one job alone, a failed job
without a reservation is not delivered to, a superseded attempt does not fail its job, a
compensation waits for the end, and no reservation is made for a job that has ended. -/
def KeepsOutcomes (s : GenerationTables) : GenerationOperation → Prop
  | .appendUsageEvent input => ∀ reservationId ∈ input.reservationId,
      (input.action = .reserve →
        ∀ job ∈ s.holders input.resource reservationId, job.status.isTerminal = false) ∧
      (input.action.isTerminal = true → s.holders input.resource reservationId = [])
  | .checkpointGenerationAttempt input _ => 0 < input.usageAmount →
      s.reservationOf input.operation input.usageReservationId = none →
        ∀ job ∈ s.holders input.operation input.usageReservationId, job.status.isTerminal = false
  | .settleProviderOutcome input => ∀ attempt ∈ s.attempts.get? input.attemptId,
      ∀ job ∈ s.generationJobs.get? attempt.jobId, job.status.isTerminal = false →
        (input.outcome.jobStatus.isTerminal = true → s.endsAlone job = true) ∧
        (input.outcome.jobStatus = .failed → s.superseded attempt = false)
  | .recordAssetReceipt input => ∀ job ∈ s.generationJobs.get? input.jobId,
      s.endsAlone job = true ∧ (job.status = .failed →
        (s.reservationOf job.operation job.usageReservationId).isSome = true)
  | .settleGenerationFailure input =>
      ∀ job ∈ s.generationJobs.get? input.jobId, s.endsAlone job = true
  | .compensateCommittedUsage input => ∀ job ∈ s.generationJobs.get? input.jobId,
      s.isOpen job.operation job.usageReservationId = false
  | _ => True

instance : ∀ (s : GenerationTables) (operation : GenerationOperation),
    Decidable (KeepsOutcomes s operation)
  | _, .appendUsageEvent _ => by unfold KeepsOutcomes; infer_instance
  | _, .startGeneration _ => .isTrue trivial
  | _, .checkpointGenerationAttempt _ _ => by unfold KeepsOutcomes; infer_instance
  | _, .checkpointProviderAttempt _ => .isTrue trivial
  | _, .recordAttemptAcceptance _ => .isTrue trivial
  | _, .settleProviderOutcome _ => by unfold KeepsOutcomes; infer_instance
  | _, .recordAssetReceipt _ => by unfold KeepsOutcomes; infer_instance
  | _, .settleGenerationFailure _ => by unfold KeepsOutcomes; infer_instance
  | _, .compensateCommittedUsage _ => by unfold KeepsOutcomes; infer_instance

theorem mem_holders : job ∈ s.holders resource reservationId ↔
    (∃ id, s.generationJobs.get? id = some job) ∧ job.holds resource reservationId := by
  rw [holders, List.mem_filter, OrderedMap.mem_values, decide_eq_true_iff]

/-! ## The invariant -/

/-- **The invariant**: reservations end once, jobs agree with theirs, and none is cancelled. -/
structure OutcomesSound (s : GenerationTables) : Prop where
  attempts : AttemptsOnce s
  reservations : ReservationsSound s
  agrees : ∀ id job, s.generationJobs.get? id = some job → JobAgrees s job
  uncancelled : ∀ id job, s.generationJobs.get? id = some job → job.status ≠ .cancelled

theorem OutcomesSound.empty : OutcomesSound .empty where
  attempts := .empty
  reservations := .empty
  agrees _ _ h := nomatch (OrderedMap.get?_empty).symm.trans h
  uncancelled _ _ h := nomatch (OrderedMap.get?_empty).symm.trans h

/-- The reservations move, and every job that holds one that moves agrees. -/
theorem OutcomesSound.moved (h : OutcomesSound s)
    (hmove : ReservationMove s resource reservationId s')
    (hheld : ∀ id job, s.generationJobs.get? id = some job → job.holds resource reservationId →
      JobAgrees s' job)
    (hjobs : s'.generationJobs = s.generationJobs) (hattempts : AttemptsOnce s') :
    OutcomesSound s' where
  attempts := hattempts
  reservations := h.reservations.move hmove
  agrees id job hjob := by
    rw [hjobs] at hjob
    by_cases hother : job.holds resource reservationId
    · exact hheld id job hjob hother
    · exact (h.agrees id job hjob).elsewhere hmove hother
  uncancelled := hjobs ▸ h.uncancelled

/-- **A job is written** while the reservations move: it agrees, and so do those beside it. -/
theorem OutcomesSound.setJob (h : OutcomesSound s) (job : GenerationJob)
    (hmove : ReservationMove s resource reservationId s')
    (hheld : ∀ id other, s.generationJobs.get? id = some other → id ≠ job.id →
      other.holds resource reservationId → JobAgrees s' other)
    (hagrees : JobAgrees s' job) (huncancelled : job.status ≠ .cancelled)
    (hjobs : s'.generationJobs = s.generationJobs.set job.id job) (hattempts : AttemptsOnce s') :
    OutcomesSound s' := by
  refine ⟨hattempts, h.reservations.move hmove, fun id other hother => ?_,
    hjobs ▸ OrderedMap.forall_get?_set huncancelled h.uncancelled⟩
  rcases OrderedMap.get?_set_eq_some (hjobs ▸ hother) with ⟨-, rfl⟩ | ⟨hne, hother⟩
  · exact hagrees
  · by_cases hholds : other.holds resource reservationId
    · exact hheld id other hother hne hholds
    · exact (h.agrees id other hother).elsewhere hmove hholds

/-! ### A job ends -/

variable {s₁ : GenerationTables}

/-- The reservations are read off the usage alone. -/
theorem ReservationMove.of_events (h : ReservationMove s resource reservationId s₁)
    (hevents : s'.usageEvents = s₁.usageEvents) : ReservationMove s resource reservationId s' := by
  have hlist (resource : UsageResource) :
      s'.listUsageEvents resource = s₁.listUsageEvents resource := congrArg (List.filter _) hevents
  have hreservation (resource : UsageResource) (id : String) :
      s'.reservationOf resource id = s₁.reservationOf resource id :=
    congrArg (List.find? _) (hlist resource)
  have hendsOf (resource : UsageResource) (id : String) :
      s'.endsOf resource id = s₁.endsOf resource id := congrArg (List.filter _) (hlist resource)
  cases h with
  | same hsame hends =>
    exact .same (fun _ _ => (hreservation _ _).trans (hsame _ _))
      fun _ _ => (hendsOf _ _).trans (hends _ _)
  | made hopen hothers hmade hends =>
    refine .made hopen (fun _ _ hother => (hreservation _ _).trans (hothers _ _ hother)) ?_
      fun _ _ => (hendsOf _ _).trans (hends _ _)
    rw [hreservation]
    exact hmade
  | ended event hopen hsame hothers hended =>
    exact .ended event hopen (fun _ _ => (hreservation _ _).trans (hsame _ _))
      (fun _ _ hother => (hendsOf _ _).trans (hothers _ _ hother)) ((hendsOf _ _).trans hended)

theorem JobAgrees.of_events (h : JobAgrees s₁ job) (hevents : s'.usageEvents = s₁.usageEvents) :
    JobAgrees s' job := by
  have hlist : s'.listUsageEvents job.operation = s₁.listUsageEvents job.operation :=
    congrArg (List.filter _) hevents
  exact h.same (congrArg (List.find? _) hlist) (congrArg (List.filter _) hlist)

theorem Ends.move (h : Ends s job action s') (haction : action.isTerminal = true) :
    ReservationMove s job.operation job.usageReservationId s' := by
  cases h with
  | nothing => exact .same (fun _ _ => rfl) fun _ _ => rfl
  | before => exact .same (fun _ _ => rfl) fun _ _ => rfl
  | now reservation event hreserved hnone hresource hevent hid =>
    exact .terminal hresource (hevent ▸ haction) hid (isOpen_eq_true.mpr
      ⟨Option.isSome_iff_exists.mpr ⟨reservation, hreserved⟩, hnone⟩)

/-- The job agrees with the end it is given. -/
theorem Ends.agrees {updated : GenerationJob} (h : Ends s job action s')
    (haction : action.isTerminal = true) (hstatus : action.outcome = some updated.status)
    (hoperation : updated.operation = job.operation)
    (husage : updated.usageReservationId = job.usageReservationId) : JobAgrees s' updated := by
  cases h with
  | nothing hnone => exact .of_none (hoperation ▸ husage ▸ hnone)
  | before terminal hended hbefore =>
    exact .of_ended terminal (hoperation ▸ husage ▸ hended) (hbefore ▸ hstatus)
  | now reservation event hreserved hnone hresource hevent hid =>
    refine .of_ended event ?_ (hevent ▸ hstatus)
    rw [endOf_eq_head?, List.head?_eq_none_iff] at hnone
    rw [endOf_eq_head?, hoperation, husage, endsOf_record, hnone, if_pos]
    · rfl
    · exact ⟨hresource, UsageEvent.isTerminalOf_eq_true.mpr ⟨hid, hevent ▸ haction⟩⟩

variable {id : String}

/-- Who ends alone ends no other's reservation. -/
theorem OutcomesSound.others (h : OutcomesSound s) (hends : Ends s job action s')
    (halone : s.endsAlone job = true) {other : GenerationJob}
    (hother : s.generationJobs.get? id = some other) (hne : id ≠ job.id)
    (hholds : other.holds job.operation job.usageReservationId) : JobAgrees s' other := by
  have hagrees := h.agrees id other hother
  cases hends with
  | nothing => exact hagrees
  | before => exact hagrees
  | now reservation event hreserved hnone =>
    have hopen : s.isOpen job.operation job.usageReservationId = true :=
      isOpen_eq_true.mpr ⟨Option.isSome_iff_exists.mpr ⟨reservation, hreserved⟩, hnone⟩
    have hsame := List.all_eq_true.mp (of_decide_eq_true halone hopen) other
      (mem_holders.mpr ⟨⟨id, hother⟩, hholds⟩)
    have hid := h.attempts.job id other hother
    exact absurd (hid.symm.trans (of_decide_eq_true hsame)) hne

/-- **A job ends with its reservation**, and no other job with it. -/
theorem OutcomesSound.ends (h : OutcomesSound s) (job updated : GenerationJob)
    (hends : Ends s job action s₁) (haction : action.isTerminal = true)
    (hstatus : action.outcome = some updated.status) (halone : s.endsAlone job = true)
    (hid : updated.id = job.id) (hoperation : updated.operation = job.operation)
    (husage : updated.usageReservationId = job.usageReservationId)
    (hevents : s'.usageEvents = s₁.usageEvents)
    (hjobs : s'.generationJobs = s.generationJobs.set updated.id updated)
    (hattempts : AttemptsOnce s') : OutcomesSound s' := by
  have huncancelled : updated.status ≠ .cancelled := by
    rintro hcancelled
    rw [hcancelled] at hstatus
    cases action <;> exact nomatch hstatus
  refine h.setJob updated ((hends.move haction).of_events hevents)
    (fun id other hother hne hholds => ?_)
    ((hends.agrees haction hstatus hoperation husage).of_events hevents) huncancelled hjobs
    hattempts
  exact (h.others hends halone hother (hid ▸ hne) hholds).of_events hevents

/-- The usage is left alone. -/
theorem ReservationMove.unmoved (hevents : s'.usageEvents = s.usageEvents) :
    ReservationMove s resource reservationId s' :=
  (ReservationMove.same (fun _ _ => rfl) fun _ _ => rfl : ReservationMove s resource
    reservationId s).of_events hevents

/-- A job is written that runs, or agrees as it did. -/
theorem OutcomesSound.writeJob (h : OutcomesSound s) (job : GenerationJob)
    (hagrees : JobAgrees s job) (huncancelled : job.status ≠ .cancelled)
    (hevents : s'.usageEvents = s.usageEvents)
    (hjobs : s'.generationJobs = s.generationJobs.set job.id job) (hattempts : AttemptsOnce s') :
    OutcomesSound s' := by
  have hmove : ReservationMove s job.operation job.usageReservationId s' := .unmoved hevents
  refine h.setJob job hmove (fun id other hother _ _ => ?_) (hagrees.of_events hevents)
    huncancelled hjobs hattempts
  exact (h.agrees id other hother).of_events hevents

/-- A job that runs has an open reservation, if it has one. -/
theorem JobAgrees.rerun {updated : GenerationJob} (h : JobAgrees s job)
    (hbefore : job.status.isTerminal = false) (hafter : updated.status.isTerminal = false)
    (hoperation : updated.operation = job.operation)
    (husage : updated.usageReservationId = job.usageReservationId) : JobAgrees s updated := by
  intro hsome
  rw [hoperation, husage] at hsome ⊢
  have hagrees := h hsome
  split at hagrees
  · exact hafter
  · exact nomatch hbefore.symm.trans (UsageAction.outcome_isTerminal hagrees)

/-! ## A step -/

/-- A holder agrees after an append: a reservation is made only while it runs, and not ended. -/
theorem UsageRule.agrees (h : UsageRule (s.listUsageEvents event.resource) event)
    (hagrees : JobAgrees s job) (hholds : job.holds event.resource (event.reservationId.getD ""))
    (hcondition : ∀ id, event.reservationId = some id →
      (event.action = .reserve → job.status.isTerminal = false) ∧
      ¬ event.action.isTerminal = true) : JobAgrees (s.record event) job := by
  cases h with
  | adjust haction =>
    exact hagrees.same (reservationOf_record_of_ne (by rw [haction]; nofun))
      (endsOf_record_of_not (by rw [haction]; rfl))
  | compensate haction =>
    exact hagrees.same (reservationOf_record_of_ne (by rw [haction]; nofun))
      (endsOf_record_of_not (by rw [haction]; rfl))
  | reserve id haction hid hnew hopen =>
    refine .of_open ?_ ((hcondition id hid).1 haction)
    rw [hid] at hholds
    rw [hholds.1, hholds.2, endOf_eq_head?, endsOf_record_of_not (by rw [haction]; rfl),
      ← endOf_eq_head?]
    exact hopen
  | terminal id reservation haction hid => exact absurd haction (hcondition id hid).2

/-- What was the same before is the same over the move. -/
theorem ReservationMove.after (h : ReservationMove s₁ resource reservationId s')
    (hreservation : ∀ resource id, s₁.reservationOf resource id = s.reservationOf resource id)
    (hends : ∀ resource id, s₁.endsOf resource id = s.endsOf resource id) :
    ReservationMove s resource reservationId s' := by
  have hend (resource : UsageResource) (id : String) :
      s₁.endOf resource id = s.endOf resource id := by
    rw [endOf_eq_head?, hends, ← endOf_eq_head?]
  cases h with
  | same hsame hends' =>
    exact .same (fun _ _ => (hsame _ _).trans (hreservation _ _))
      fun _ _ => (hends' _ _).trans (hends _ _)
  | made hopen hothers hmade hends' =>
    exact .made (hend _ _ ▸ hopen)
      (fun _ _ hother => (hothers _ _ hother).trans (hreservation _ _)) hmade
      fun _ _ => (hends' _ _).trans (hends _ _)
  | ended event hopen hsame hothers hended =>
    refine .ended event ?_ (fun _ _ => (hsame _ _).trans (hreservation _ _))
      (fun _ _ hother => (hothers _ _ hother).trans (hends _ _)) hended
    rw [isOpen, hreservation, hend] at hopen
    exact hopen

/-- An opening entitlement moves no reservation. -/
theorem Opens.reads {operation : UsageResource} (h : Opens s operation s') :
    (∀ resource id, s'.reservationOf resource id = s.reservationOf resource id) ∧
      ∀ resource id, s'.endsOf resource id = s.endsOf resource id := by
  cases h with
  | none => exact ⟨fun _ _ => rfl, fun _ _ => rfl⟩
  | written event hresource haction =>
    exact ⟨fun _ _ => reservationOf_record_of_ne (by rw [haction]; nofun),
      fun _ _ => endsOf_record_of_not (by rw [haction]; rfl)⟩

variable {input : CheckpointIdentity}

theorem CheckpointReserves.open (h : CheckpointReserves s input s') :
    s'.endOf input.operation input.usageReservationId = none := by
  cases h with
  | held reservation hreservation hopen => exact hopen
  | free hnone hopen => exact hopen
  | made event hresource haction hamount hid hrule =>
    cases hrule with
    | reserve id _ hid' _ hopen =>
      obtain rfl := Option.some.inj (hid.symm.trans hid')
      rw [endOf_eq_head?, endsOf_record_of_not (by rw [haction]; rfl), ← endOf_eq_head?]
      exact hopen
    | adjust hother => exact nomatch haction.symm.trans hother
    | compensate hother => exact nomatch haction.symm.trans hother
    | terminal _ _ hother =>
      rw [haction] at hother
      exact nomatch hother

theorem CheckpointReserves.move (h : CheckpointReserves s input s') :
    ReservationMove s input.operation input.usageReservationId s' := by
  have hopen := h.open
  cases h with
  | held => exact .unmoved rfl
  | free => exact .unmoved rfl
  | made event hresource haction hamount hid hrule =>
    rw [endOf_eq_head?, endsOf_record_of_not (by rw [haction]; rfl), ← endOf_eq_head?] at hopen
    exact .reserve hresource haction hid hopen

/-- A holder agrees after a checkpoint: a reservation is made only while it runs. -/
theorem CheckpointReserves.agrees (h : CheckpointReserves s input s') (hagrees : JobAgrees s job)
    (hholds : job.holds input.operation input.usageReservationId)
    (hcondition : 0 < input.usageAmount →
      s.reservationOf input.operation input.usageReservationId = none →
        job.status.isTerminal = false) : JobAgrees s' job := by
  have hopen := h.open
  cases h with
  | held => exact hagrees
  | free => exact hagrees
  | made event hresource haction hamount hid hrule =>
    cases hrule with
    | reserve id _ hid' hnew _ hpositive =>
      obtain rfl := Option.some.inj (hid.symm.trans hid')
      refine .of_open ?_ (hcondition (hamount ▸ hpositive) hnew)
      rw [hholds.1, hholds.2]
      exact hopen
    | adjust hother => exact nomatch haction.symm.trans hother
    | compensate hother => exact nomatch haction.symm.trans hother
    | terminal _ _ hother =>
      rw [haction] at hother
      exact nomatch hother

/-- An attempt whose place was taken had been rejected. -/
theorem AttemptsOnce.superseded (h : AttemptsOnce s) {attempt : ProviderAttempt}
    (hattempt : s.attempts.get? id = some attempt) (hlater : s.superseded attempt = true) :
    attempt.acceptance = .rejected_before_accept := by
  have hmem : attempt ∈ s.listProviderAttempts attempt.jobId :=
    List.mem_filter.mpr ⟨OrderedMap.mem_values_of_get? hattempt, decide_eq_true rfl⟩
  have hearlier := h.earlier attempt.jobId
  rw [GenerationTables.superseded] at hlater
  obtain ⟨last, hlast, hne⟩ := Option.any_eq_true _ _ |>.mp hlater
  obtain ⟨earlier, hlist⟩ := List.getLast?_eq_some_iff.mp hlast
  rw [hlist] at hmem hearlier
  rw [List.dropLast_concat] at hearlier
  rcases List.mem_append.mp hmem with hmem | hmem
  · exact hearlier attempt hmem
  · exact absurd (congrArg ProviderAttempt.id (List.mem_singleton.mp hmem).symm)
      (of_decide_eq_true hne)

/-- **A job is settled** with the outcome of its attempt: it ends, or it runs on. -/
theorem OutcomesSound.settles (h : OutcomesSound s) (updated : GenerationJob)
    {outcome : ProviderOutcome} (hjob : s.generationJobs.get? id = some job)
    (hstatus : job.status.isTerminal = false)
    (halone : outcome.jobStatus.isTerminal = true → s.endsAlone job = true)
    (hsettles : Settles s job outcome s₁) (hid : updated.id = job.id)
    (hoperation : updated.operation = job.operation)
    (husage : updated.usageReservationId = job.usageReservationId)
    (hupdated : updated.status = outcome.jobStatus) (hevents : s'.usageEvents = s₁.usageEvents)
    (hjobs : s'.generationJobs = s.generationJobs.set updated.id updated)
    (hattempts : AttemptsOnce s') : OutcomesSound s' := by
  have hruns : outcome.jobStatus.isTerminal = false → s₁ = s → OutcomesSound s' := by
    rintro hafter rfl
    rw [← hupdated] at hafter
    exact h.writeJob updated ((h.agrees id job hjob).rerun hstatus hafter hoperation husage)
      (fun hcancelled => by rw [hcancelled] at hafter; cases hafter) hevents hjobs hattempts
  cases outcome with
  | completed asset =>
    exact h.ends job updated hsettles rfl (by rw [hupdated]; rfl) (halone rfl) hid hoperation
      husage hevents hjobs hattempts
  | failed reason =>
    exact h.ends job updated hsettles rfl (by rw [hupdated]; rfl) (halone rfl) hid hoperation
      husage hevents hjobs hattempts
  | retryable_rejection reason => exact hruns rfl hsettles
  | unknown reason => exact hruns rfl hsettles

/-- An event that neither makes a reservation nor ends one changes no job's answer. -/
theorem OutcomesSound.allowance (h : OutcomesSound s) (hreserve : event.action ≠ .reserve)
    (hterminal : event.action.isTerminal = false) (hattempts : AttemptsOnce (s.record event)) :
    OutcomesSound (s.record event) := by
  have hmove : ReservationMove s event.resource "" (s.record event) := .allowance hreserve hterminal
  refine h.moved hmove (fun id other hother _ => ?_) rfl hattempts
  exact (h.agrees id other hother).same (reservationOf_record_of_ne hreserve)
    (endsOf_record_of_not hterminal)

/-- **An attempt is checkpointed**: its job is written behind the reservation it needs. -/
theorem OutcomesSound.checkpoints (h : OutcomesSound s) {s₂ : GenerationTables}
    (hkeeps : 0 < input.usageAmount →
      s.reservationOf input.operation input.usageReservationId = none →
        ∀ job ∈ s.holders input.operation input.usageReservationId, job.status.isTerminal = false)
    (hopens : Opens s input.operation s₁) (hreserves : CheckpointReserves s₁ input s₂)
    (hoperation : job.operation = input.operation)
    (husage : job.usageReservationId = input.usageReservationId) (hstatus : job.status = .running)
    (hevents : s'.usageEvents = s₂.usageEvents)
    (hjobs : s'.generationJobs = s.generationJobs.set job.id job)
    (hattempts : AttemptsOnce s') : OutcomesSound s' := by
  obtain ⟨hreservation, hends⟩ := hopens.reads (s := s)
  have hmove := hreserves.move.after hreservation hends
  refine h.setJob job (hmove.of_events hevents) (fun id other hother _ hholds => ?_) ?_
    (by rw [hstatus]; nofun) hjobs hattempts
  · refine (hreserves.agrees ((h.agrees id other hother).same (hreservation _ _) (hends _ _))
      hholds fun hpositive hnone => ?_).of_events hevents
    exact hkeeps hpositive (hreservation _ _ ▸ hnone) other
      (mem_holders.mpr ⟨⟨id, hother⟩, hholds⟩)
  · refine (JobAgrees.of_open (s := s₂) ?_ (by rw [hstatus]; rfl)).of_events hevents
    rw [hoperation, husage]
    exact hreserves.open

variable {operation : GenerationOperation}

/-- **The invariant holds after every call that keeps to the side condition.** -/
theorem OutcomesSound.of_effect (h : OutcomesSound s) (hkeeps : KeepsOutcomes s operation)
    (heffect : GenerationEffect s operation s') : OutcomesSound s' := by
  have hattempts := h.attempts.of_effect heffect
  cases heffect with
  | kept => exact h
  | appended input event hresource haction hamount hid hnamed hrule =>
    rw [← hresource] at hrule
    refine h.moved hrule.move (fun id job hjob hholds => ?_) rfl hattempts
    refine hrule.agrees (h.agrees id job hjob) hholds fun reservationId hreservation => ?_
    have hcondition := hkeeps reservationId (hid ▸ hreservation)
    have hmem : job ∈ s.holders input.resource reservationId := by
      rw [hreservation, hresource] at hholds
      exact mem_holders.mpr ⟨⟨id, hjob⟩, hholds⟩
    refine ⟨fun hreserve => hcondition.1 (haction ▸ hreserve) job hmem, fun hterminal => ?_⟩
    rw [hcondition.2 (haction ▸ hterminal)] at hmem
    exact List.not_mem_nil hmem
  | started input snapshot job hreservation hopen hsnapshot hnew hid hoperation husage hstatus =>
    refine h.writeJob job (.of_open ?_ (by rw [hstatus]; rfl)) (by rw [hstatus]; nofun) rfl rfl
      hattempts
    rw [hoperation, husage, hopen]
  | checkpointed input opening s₁ s₂ snapshots snapshot job attempt hopens hreserves hsnapshots
      hsnapshot hcontains hnew hid hoperation husage hstatus =>
    exact h.checkpoints hkeeps hopens hreserves hoperation husage hstatus rfl rfl hattempts
  | opened input job snapshot attempt now hjob hstatus =>
    have hagrees := h.agrees _ _ hjob
    exact h.writeJob { job with status := .running, updatedAt := now }
      (hagrees.rerun hstatus rfl rfl rfl) nofun rfl rfl hattempts
  | accepted input attempt updated =>
    have hmove : ReservationMove s .copy "" { s with attempts := s.attempts.set updated.id updated } :=
      .unmoved rfl
    exact h.moved hmove (fun id job hjob _ => h.agrees id job hjob) rfl hattempts
  | settled input attempt updated job updatedJob s₁ costs assets hattempt hjob hstatus hfollows
      hdelivered hid hof hdeployment hsettles hidJob hoperation husage hroute hupdated =>
    exact h.settles updatedJob hjob hstatus (hkeeps attempt hattempt job hjob hstatus).1 hsettles
      hidJob hoperation husage hupdated rfl rfl hattempts
  | received input attempt job s₁ assets now hattempt hjob hof haccepted hends =>
    exact h.ends job { job with status := .completed, updatedAt := now } hends rfl rfl
      (hkeeps job hjob).1 rfl rfl rfl rfl rfl hattempts
  | failed input job s₁ now hjob hstatus hends =>
    exact h.ends job { job with status := .failed, updatedAt := now } hends rfl rfl
      (hkeeps job hjob) rfl rfl rfl rfl rfl hattempts
  | refunded input job reservation event hjob hreservation hopen =>
    have hclosed := hkeeps job hjob
    refine absurd (isOpen_eq_true.mpr ⟨?_, hopen⟩) (Bool.eq_false_iff.mp hclosed)
    exact Option.isSome_iff_exists.mpr ⟨reservation, hreservation⟩
  | compensated input job reservation terminal event hjob hreservation hended hcommit hnew heventId
      hresource haction =>
    exact h.allowance (by rw [haction]; nofun) (by rw [haction]; rfl) hattempts

/-! ## What is final -/

/-- The attempt an outcome or a receipt speaks of. -/
def GenerationOperation.settledAttempt : GenerationOperation → Option String
  | .settleProviderOutcome input => some input.attemptId
  | .recordAssetReceipt input => some input.attemptId
  | _ => none

/-- **What a call may do to the status of a job**: a final one stays, and what comes back of an
attempt whose place was taken ends nothing. -/
structure OutcomesFinal (s : GenerationTables) (operation : GenerationOperation)
    (s' : GenerationTables) : Prop where
  terminal : ∀ id job, s.generationJobs.get? id = some job → job.status.isTerminal = true →
    ∃ later, s'.generationJobs.get? id = some later ∧ later.status = job.status
  superseded : ∀ attemptId attempt, operation.settledAttempt = some attemptId →
    s.attempts.get? attemptId = some attempt → s.superseded attempt = true →
      ∀ id later, s'.generationJobs.get? id = some later → later.status.isTerminal = true →
        ∃ job, s.generationJobs.get? id = some job ∧ job.status.isTerminal = true

/-- No job is written. -/
theorem OutcomesFinal.unmoved (hjobs : s'.generationJobs = s.generationJobs) :
    OutcomesFinal s operation s' where
  terminal _ job hjob _ := ⟨job, hjobs ▸ hjob, rfl⟩
  superseded _ _ _ _ _ _ later hlater hterminal := ⟨later, hjobs ▸ hlater, hterminal⟩

/-- One job is written. -/
theorem OutcomesFinal.setJob (job : GenerationJob)
    (hjobs : s'.generationJobs = s.generationJobs.set job.id job)
    (hterminal : ∀ before, s.generationJobs.get? job.id = some before →
      before.status.isTerminal = true → job.status = before.status)
    (hsuperseded : ∀ attemptId attempt, operation.settledAttempt = some attemptId →
      s.attempts.get? attemptId = some attempt → s.superseded attempt = true →
        job.status.isTerminal = false) : OutcomesFinal s operation s' := by
  refine ⟨fun id before hbefore hfinal => ?_,
    fun attemptId attempt hof hattempt hlater id later hjob hfinal => ?_⟩
  · rw [hjobs, OrderedMap.get?_set]
    split
    · next heq => exact ⟨job, rfl, hterminal before (heq ▸ hbefore) hfinal⟩
    · exact ⟨before, hbefore, rfl⟩
  · rw [hjobs, OrderedMap.get?_set] at hjob
    split at hjob
    · rw [← Option.some.inj hjob, hsuperseded attemptId attempt hof hattempt hlater] at hfinal
      cases hfinal
    · exact ⟨later, hjob, hfinal⟩

theorem GenerationStatus.eq_failed (hfinal : status.isTerminal = true)
    (hnot : status ≠ .completed ∧ status ≠ .cancelled) : status = .failed := by
  cases status with
  | failed => rfl
  | completed => exact absurd rfl hnot.1
  | cancelled => exact absurd rfl hnot.2
  | _ => exact nomatch hfinal

/-- **A receipt for a job that has ended** is for one that was delivered. -/
theorem OutcomesSound.received (h : OutcomesSound s) (hjob : s.generationJobs.get? id = some job)
    (hreserved : job.status = .failed →
      (s.reservationOf job.operation job.usageReservationId).isSome = true)
    (hends : Ends s job .commit s') (hfinal : job.status.isTerminal = true) :
    job.status = .completed := by
  have hagrees := h.agrees id job hjob
  have hnot := h.uncancelled id job hjob
  cases hstatus : job.status with
  | completed => rfl
  | cancelled => exact absurd hstatus hnot
  | failed =>
    have hsome := hreserved hstatus
    have hended := hagrees hsome
    rw [hstatus] at hended
    cases hends with
    | nothing hnone =>
      rw [hnone] at hsome
      exact nomatch hsome
    | before terminal hterminal haction =>
      rw [hterminal] at hended
      dsimp only at hended
      rw [haction] at hended
      exact nomatch hended
    | now reservation event _ hopen =>
      rw [hopen] at hended
      exact nomatch hended
  | _ =>
    rw [hstatus] at hfinal
    exact nomatch hfinal

/-- **Every call that keeps to the side condition leaves what is final.** -/
theorem OutcomesSound.final (h : OutcomesSound s) (hkeeps : KeepsOutcomes s operation)
    (heffect : GenerationEffect s operation s') : OutcomesFinal s operation s' := by
  cases heffect with
  | kept => exact .unmoved rfl
  | appended => exact .unmoved rfl
  | started input snapshot job hreservation hopen hsnapshot hnew =>
    refine .setJob job rfl (fun before hbefore _ => ?_)
      fun _ _ hof => absurd hof.symm (Option.some_ne_none _)
    exact nomatch hnew.symm.trans hbefore
  | checkpointed input opening s₁ s₂ snapshots snapshot job attempt hopens hreserves hsnapshots
      hsnapshot hcontains hnew =>
    refine .setJob job rfl (fun before hbefore _ => ?_)
      fun _ _ hof => absurd hof.symm (Option.some_ne_none _)
    exact nomatch hnew.symm.trans hbefore
  | opened input job snapshot attempt now hjob hstatus =>
    have hid := h.attempts.job _ _ hjob
    refine .setJob { job with status := .running, updatedAt := now } rfl
      (fun before hbefore hfinal => ?_)
      fun _ _ hof => absurd hof.symm (Option.some_ne_none _)
    obtain rfl := Option.some.inj ((hid ▸ hjob).symm.trans hbefore)
    exact nomatch hstatus.symm.trans hfinal
  | accepted => exact .unmoved rfl
  | settled input attempt updated job updatedJob s₁ costs assets hattempt hjob hstatus hfollows
      hdelivered hid hof hdeployment hsettles hidJob hoperation husage hroute hupdated =>
    have hid := h.attempts.job _ _ hjob
    refine .setJob updatedJob rfl (fun before hbefore hfinal => ?_)
      fun attemptId other hof hother hlater => ?_
    · rw [hidJob, hid, hjob] at hbefore
      obtain rfl := Option.some.inj hbefore
      exact nomatch hstatus.symm.trans hfinal
    · -- a superseded attempt stays rejected, so it delivers nothing, and it may not fail
      obtain rfl := Option.some.inj hof
      obtain rfl := Option.some.inj (hattempt.symm.trans hother)
      have hrejected := hfollows.rejected (h.attempts.superseded hattempt hlater)
      have hfails := (hkeeps attempt hattempt job hjob hstatus).2
      rw [hupdated]
      cases houtcome : input.outcome with
      | completed asset =>
        rw [houtcome] at hdelivered
        exact nomatch hrejected.symm.trans (hdelivered rfl)
      | failed reason =>
        rw [houtcome] at hfails
        exact nomatch hlater.symm.trans (hfails rfl)
      | retryable_rejection reason => rfl
      | unknown reason => rfl
  | received input attempt job s₁ assets now hattempt hjob hof haccepted hends =>
    have hid := h.attempts.job _ _ hjob
    refine .setJob { job with status := .completed, updatedAt := now } rfl
      (fun before hbefore hfinal => ?_) fun attemptId other hof hother hlater => ?_
    · obtain rfl := Option.some.inj ((hid ▸ hjob).symm.trans hbefore)
      exact (h.received hjob (hkeeps job hjob).2 hends hfinal).symm
    · obtain rfl := Option.some.inj hof
      obtain rfl := Option.some.inj (hattempt.symm.trans hother)
      exact nomatch haccepted.symm.trans (h.attempts.superseded hattempt hlater)
  | failed input job s₁ now hjob hstatus hends =>
    have hid := h.attempts.job _ _ hjob
    refine .setJob { job with status := .failed, updatedAt := now } rfl
      (fun before hbefore hfinal => ?_)
      fun _ _ hof => absurd hof.symm (Option.some_ne_none _)
    obtain rfl := Option.some.inj ((hid ▸ hjob).symm.trans hbefore)
    exact (GenerationStatus.eq_failed hfinal hstatus).symm
  | refunded => exact .unmoved rfl
  | compensated => exact .unmoved rfl

/-! ## Runs -/

/-- **Jobs and their reservations agree**: a reservation ends once, with a commit exactly when its
job is completed and a refund exactly when it has failed. -/
structure OutcomesAgree (s : GenerationTables) : Prop where
  once : ∀ resource id, (s.endsOf resource id).length ≤ 1
  committed : ∀ id job, s.generationJobs.get? id = some job →
    (s.reservationOf job.operation job.usageReservationId).isSome = true →
      ((∃ event ∈ s.endsOf job.operation job.usageReservationId, event.action = .commit) ↔
        job.status = .completed)
  refunded : ∀ id job, s.generationJobs.get? id = some job →
    (s.reservationOf job.operation job.usageReservationId).isSome = true →
      ((∃ event ∈ s.endsOf job.operation job.usageReservationId, event.action = .refund) ↔
        job.status = .failed)

/-- An end is of one kind exactly when the job has the status of that kind. -/
theorem JobAgrees.ends_iff (h : JobAgrees s job) (hsound : ReservationsSound s)
    (hsome : (s.reservationOf job.operation job.usageReservationId).isSome = true)
    (haction : action.outcome = some status)
    (hinj : ∀ other : UsageAction, other.outcome = some status → other = action) :
    (∃ event ∈ s.endsOf job.operation job.usageReservationId, event.action = action) ↔
      job.status = status := by
  have hagrees := h hsome
  have honce := hsound.once job.operation job.usageReservationId
  rw [endOf_eq_head?] at hagrees
  cases hends : s.endsOf job.operation job.usageReservationId with
  | nil =>
    rw [hends] at hagrees
    constructor
    · rintro ⟨event, hevent, -⟩
      exact absurd hevent List.not_mem_nil
    · intro hstatus
      rw [List.head?_nil] at hagrees
      dsimp only at hagrees
      rw [hstatus, UsageAction.outcome_isTerminal haction] at hagrees
      exact nomatch hagrees
  | cons event rest =>
    rw [hends, List.length_cons] at honce
    obtain rfl := List.length_eq_zero_iff.mp (Nat.le_zero.mp (Nat.le_of_succ_le_succ honce))
    rw [hends, List.head?_cons] at hagrees
    dsimp only at hagrees
    constructor
    · rintro ⟨other, hother, hkind⟩
      obtain rfl := List.mem_singleton.mp hother
      rw [hkind, haction] at hagrees
      exact (Option.some.inj hagrees).symm
    · intro hstatus
      exact ⟨event, List.mem_singleton_self event, hinj _ (hstatus ▸ hagrees)⟩

theorem OutcomesSound.outcomesAgree (h : OutcomesSound s) : OutcomesAgree s where
  once := h.reservations.once
  committed id job hjob hsome := (h.agrees id job hjob).ends_iff h.reservations hsome rfl
    fun other hother => by cases other <;> first | rfl | exact nomatch hother
  refunded id job hjob hsome := (h.agrees id job hjob).ends_iff h.reservations hsome rfl
    fun other hother => by cases other <;> first | rfl | exact nomatch hother

/-- A command is a replay, or keeps to the side condition. -/
def KeepsCommand (repository : GenerationRepository) (command : GenerationCommand) : Prop :=
  (repository.commandResults.get? command.idempotencyKey).isSome = true ∨
    KeepsOutcomes repository.tables command.operation

instance (repository : GenerationRepository) (command : GenerationCommand) :
    Decidable (KeepsCommand repository command) := inferInstanceAs (Decidable (_ ∨ _))

theorem OutcomesSound.step (payloadHash : GenerationPayload → String)
    {repository : GenerationRepository} {command : GenerationCommand}
    (h : OutcomesSound repository.tables) (hkeeps : KeepsCommand repository command) :
    OutcomesSound (repository.step payloadHash command).tables ∧
      OutcomesFinal repository.tables command.operation
        (repository.step payloadHash command).tables := by
  rcases hkeeps with hreplay | hkeeps
  · rw [tables_of_replay payloadHash hreplay]
    exact ⟨h, .unmoved rfl⟩
  · have heffect := effect_of_step payloadHash repository command
    exact ⟨h.of_effect hkeeps heffect, h.final hkeeps heffect⟩

/-- **In a run of calls that keep to the side condition** jobs and reservations agree, and the next
such call leaves what is final. -/
theorem outcomesAgree_run (payloadHash : GenerationPayload → String)
    (commands : List GenerationCommand)
    (h : Admits (GenerationRepository.step payloadHash) KeepsCommand commands .empty) :
    let repository := runAll (GenerationRepository.step payloadHash) commands .empty
    OutcomesAgree repository.tables ∧ ∀ command, KeepsCommand repository command →
      OutcomesFinal repository.tables command.operation
        (repository.step payloadHash command).tables := by
  intro repository
  have hsound : OutcomesSound repository.tables :=
    runAll_induct (fun r : GenerationRepository => OutcomesSound r.tables)
      (fun _ _ hsound hkeeps => (hsound.step payloadHash hkeeps).1) commands .empty h
  exact ⟨hsound.outcomesAgree, fun _ hkeeps => (hsound.step payloadHash hkeeps).2⟩

/-! ### Sample runs -/

/-- A worker of the shop. -/
def shopWorker : GenerationContext := ⟨"shop", "worker", "correlation", true, false⟩

/-- A route with one candidate, for public data. -/
def oneRoute : RouteFacts where
  id := "route"
  catalogRevision := "1"
  policyRevision := "1"
  priceRevision := "1"
  requestedCatalogModelId := "model"
  selectionMode := .fixed
  dataClass := .public
  fallbackConsent := false
  allowedCandidates := [{
    catalogModelId := "model"
    deploymentId := "deployment"
    region := .cn
    credentialMode := "platform"
    credentialVersion := "1" }]

/-- A command of the worker under a key of its own. -/
def shopCommand (key : String) (operation : GenerationOperation) : GenerationCommand :=
  ⟨shopWorker, key, "2026-01-01T00:00:00.000Z", operation⟩

/-- A job of copy that reserves an amount. -/
def copyCheckpoint (reservationId : String) (usageAmount : Rat) : CheckpointIdentity :=
  ⟨"job", .copy, reservationId, usageAmount, oneRoute, "attempt", "deployment"⟩

/-- A receipt of the shop. -/
def shopReceipt : AssetReceipt :=
  ⟨"asset", "job", "attempt", "shop/object", String.ofList (List.replicate 64 'a'), 1⟩

/-- A job of 5 units is reserved, delivered, and compensated. -/
def deliveredCommands : List GenerationCommand :=
  [shopCommand "checkpoint" (.checkpointGenerationAttempt (copyCheckpoint "usage" 5)
      (some ⟨"opening", 10, "opening"⟩)),
    shopCommand "settle" (.settleProviderOutcome {
      attemptId := "attempt"
      acceptance := .accepted
      providerCost := ⟨"cost", "attempt", some 1, none⟩
      result := .object [("jobId", .text "job")]
      outcome := .completed none }),
    shopCommand "compensate" (.compensateCommittedUsage ⟨"job", "label"⟩)]

theorem outcomesAgree_delivered :
    let repository := runAll (GenerationRepository.step fun _ => "hash") deliveredCommands .empty
    OutcomesAgree repository.tables ∧ ∀ command, KeepsCommand repository command →
      OutcomesFinal repository.tables command.operation
        (repository.step (fun _ => "hash") command).tables :=
  outcomesAgree_run (fun _ => "hash") deliveredCommands (by decide +kernel)

/-- A job without value is accepted, and has failed. -/
def failedCommands : List GenerationCommand :=
  [shopCommand "checkpoint"
      (.checkpointGenerationAttempt (copyCheckpoint "zero-value-usage:job" 0) none),
    shopCommand "accept" (.recordAttemptAcceptance ⟨"attempt", .accepted, none⟩),
    shopCommand "fail" (.settleGenerationFailure ⟨"job", "timeout"⟩)]

/-- **A failed job is completed by a late receipt**, when it holds no reservation. -/
theorem not_outcomesAgree : ¬ ∀ (commands : List GenerationCommand),
    (∀ command ∈ commands, ∀ input, command.operation ≠ .appendUsageEvent input) →
    let repository := runAll (GenerationRepository.step fun _ => "hash") commands .empty
    OutcomesAgree repository.tables ∧ ∀ command,
      OutcomesFinal repository.tables command.operation
        (repository.step (fun _ => "hash") command).tables := by
  intro h
  obtain ⟨-, hfinal⟩ := h failedCommands (fun command hcommand input => by
    simp only [failedCommands, List.mem_cons, List.not_mem_nil, or_false] at hcommand
    rcases hcommand with rfl | rfl | rfl <;> nofun)
  have hfailed : ((runAll (GenerationRepository.step fun _ => "hash") failedCommands
      .empty).tables.generationJobs.get? "job").any (·.status = .failed) = true := by decide +kernel
  have hcompleted : (((runAll (GenerationRepository.step fun _ => "hash") failedCommands
      .empty).step (fun _ => "hash") (shopCommand "receive"
        (.recordAssetReceipt shopReceipt))).tables.generationJobs.get? "job").any
          (·.status = .completed) = true := by decide +kernel
  obtain ⟨job, hjob, hstatus⟩ := Option.any_eq_true _ _ |>.mp hfailed
  obtain ⟨later, hlater, hafter⟩ := Option.any_eq_true _ _ |>.mp hcompleted
  have hstatus := of_decide_eq_true hstatus
  obtain ⟨found, hfound, hsame⟩ := (hfinal (shopCommand "receive"
    (.recordAssetReceipt shopReceipt))).terminal "job" job hjob (by rw [hstatus]; rfl)
  obtain rfl := Option.some.inj (hfound.symm.trans hlater)
  rw [of_decide_eq_true hafter, hstatus] at hsame
  exact nomatch hsame

end MeiyeAgent
