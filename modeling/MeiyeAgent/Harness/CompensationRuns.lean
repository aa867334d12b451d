import MeiyeAgent.Harness.Compensations
import MeiyeAgent.Harness.IdentityFacts

/-!
# Harness/CompensationRuns — what a late report undoes

A report is not fenced: it names a row, not a claim.  So a worker that was slow, and whose row was
claimed again, still writes; and a failure reported after a completion takes the completion back.

* `rowChange` — what an event does to one row.
* `Timely` — the reports that come in time, read off the row before them.
* `endsOnce_run` — **with reports in time, a completed settlement stays completed**.
-/

namespace MeiyeAgent

open Effect

variable {queue : CompensationQueue} {event : CompensationEvent} {k : CompensationKey}
  {row row' : CompensationRow} {task : HarnessBillingCompensationTask}

namespace CompensationEvent

/-- The task an event reports on, and the status it sets. -/
def report? (event : CompensationEvent) :
    Option (HarnessBillingCompensationTask × CompensationStatus) :=
  match event.call with
  | .markCompleted task => some (task, .completed)
  | .markFailed task _ => some (task, .pending)
  | _ => none

end CompensationEvent

/-- **The task names the row** under `k`. -/
def HarnessBillingCompensationTask.Names (task : HarnessBillingCompensationTask)
    (k : CompensationKey) : Prop :=
  task.workspaceId = k.1 ∧ task.billingIdentity.settlementIdempotencyKey = .ok k.2

theorem settlementKey_eq_ok {key : String} : task.settlementKey = .ok key ↔
    task.billingIdentity.settlementIdempotencyKey = .ok key := by
  rw [HarnessBillingCompensationTask.settlementKey]
  cases task.billingIdentity.settlementIdempotencyKey <;> simp [Except.mapError]

/-! ## One event -/

/-- **What an event does to one row**: it leaves it, or inserts it, or claims it, or reports on
it. -/
inductive RowChange (queue : CompensationQueue) (event : CompensationEvent) (k : CompensationKey) :
    Option CompensationRow → Option CompensationRow → Prop
  | kept (row : Option CompensationRow) : RowChange queue event k row row
  | inserted (row : CompensationRow) (hnames : row.task.Names k)
      (hworkspace : row.payload.billingIdentity.workspaceId = k.1)
      (hstatus : row.status = .pending) (hattempts : row.attempts = 0) :
      RowChange queue event k none (some row)
  | claimed (row : CompensationRow) (hready : row.isReady event.now = true)
      (hclaim : event.report? = none) :
      RowChange queue event k (some row) (some (row.claim event.now))
  | reported (task : HarnessBillingCompensationTask) (row row' : CompensationRow)
      (hreport : event.report? = some (task, row'.status)) (hnames : task.Names k)
      (haction : row.action = task.action) (haction' : row'.action = row.action)
      (hattempts : row'.attempts = row.attempts) (hpayload : row'.payload = row.payload) :
      RowChange queue event k (some row) (some row')

namespace CompensationQueue

/-- The outcome of a call, row by row. -/
def Changes (event : CompensationEvent) (queue queue' : CompensationQueue) : Prop :=
  ∀ k, RowChange queue event k (queue.rows.get? k) (queue'.rows.get? k)

theorem Changes.refl : Changes event queue queue := fun k => .kept (queue.rows.get? k)

/-- A write at one key. -/
theorem changes_set {k : CompensationKey} {row : CompensationRow}
    (h : RowChange queue event k (queue.rows.get? k) (some row)) :
    Changes event queue ⟨queue.rows.set k row⟩ := by
  intro k'
  rw [OrderedMap.get?_set]
  split
  · next heq => exact heq ▸ h
  · exact .kept _

theorem assertCompensationInputIdentity_eq_ok {u : Unit}
    (h : task.assertCompensationInputIdentity = .ok u) :
    task.billingIdentity.workspaceId = task.workspaceId := by
  rw [HarnessBillingCompensationTask.assertCompensationInputIdentity, guard_eq_ok, not_or] at h
  exact not_not.mp h.1.1

theorem enqueue_spec (input : HarnessBillingCompensationTask) :
    Wp (enqueue event.now input) queue (fun _ => Changes event queue)
      (fun _ queue' => queue' = queue) := by
  simp only [enqueue, wp_bind, wp_check, wp_get]
  refine ⟨fun _ hidentity => ⟨fun key hkey => ?_, fun _ _ => trivial⟩, fun _ _ => trivial⟩
  split
  · simp only [wp_ite, wp_throw, wp_pure]
    exact ⟨fun _ => trivial, fun _ => .refl⟩
  · next hnone =>
    simp only [wp_bind, wp_ite, wp_throw, wp_set]
    refine ⟨fun _ => trivial, fun _ => changes_set ?_⟩
    rw [hnone]
    exact .inserted _ ⟨rfl, settlementKey_eq_ok.mp hkey⟩
      (assertCompensationInputIdentity_eq_ok hidentity) rfl rfl

/-- The row of a report is the row it names. -/
theorem reportedRow_eq_some {key : String} : queue.reportedRow task key = some row ↔
    queue.rows.get? (task.workspaceId, key) = some row ∧ row.action = task.action := by
  simp [reportedRow, Option.filter_eq_some_iff]

theorem markCompleted_spec (hreport : event.report? = some (task, .completed)) :
    Wp (markCompleted event.now task) queue (fun _ => Changes event queue)
      (fun _ queue' => queue' = queue) := by
  simp only [markCompleted, wp_bind, wp_check, wp_get]
  refine ⟨fun key hkey => ?_, fun _ _ => trivial⟩
  split
  · next row hrow =>
    obtain ⟨hget, haction⟩ := reportedRow_eq_some.mp hrow
    simp only [wp_set]
    refine changes_set ?_
    rw [hget]
    exact .reported task row _ hreport ⟨rfl, settlementKey_eq_ok.mp hkey⟩ haction rfl rfl rfl
  · simp only [wp_pure]
    exact .refl

theorem markFailed_spec {retryAt : Int} (hreport : event.report? = some (task, .pending)) :
    Wp (markFailed event.now task retryAt) queue (fun _ => Changes event queue)
      (fun _ queue' => queue' = queue) := by
  simp only [markFailed, wp_bind, wp_check, wp_get]
  refine ⟨fun key hkey => ?_, fun _ _ => trivial⟩
  split
  · next row hrow =>
    obtain ⟨hget, haction⟩ := reportedRow_eq_some.mp hrow
    simp only [wp_set]
    refine changes_set ?_
    rw [hget]
    exact .reported task row _ hreport ⟨rfl, settlementKey_eq_ok.mp hkey⟩ haction rfl rfl rfl
  · simp only [wp_pure]
    exact .refl

variable {tie : CompensationKey → Int}

/-- **What a claim hands out**: each task is that of a row it leaves claimed. -/
def HandsOut (event : CompensationEvent) (queue queue' : CompensationQueue)
    (tasks : List HarnessBillingCompensationTask) : Prop :=
  ∀ task ∈ tasks, ∃ k row, queue.rows.get? k = some row ∧ row.isReady event.now = true ∧
    queue'.rows.get? k = some (row.claim event.now) ∧ task = (row.claim event.now).task

theorem claimBatch_spec {limit : Int} (hreport : event.report? = none) :
    Wp (claimBatch event.now tie limit) queue
      (fun tasks queue' => Changes event queue queue' ∧ HandsOut event queue queue' tasks)
      (fun _ queue' => queue' = queue) := by
  simp only [claimBatch, wp_bind, wp_ite, wp_throw, wp_pure, wp_get, wp_set]
  refine ⟨fun _ => trivial, fun _ => ⟨fun k => ?_, fun task htask => ?_⟩⟩
  · rcases OrderedMap.get?_setAll_pick (CompensationRow.claim event.now) k with
      ⟨row, hrow, hget⟩ | ⟨-, hget⟩
    · obtain ⟨hqueue, hready⟩ := OrderedMap.of_mem_pick hrow
      rw [ready, hget, hqueue]
      exact .claimed row hready hreport
    · rw [ready, hget]
      exact .kept _
  · rw [List.map_map] at htask
    obtain ⟨e, he, rfl⟩ := List.mem_map.mp htask
    obtain ⟨hqueue, hready⟩ := OrderedMap.of_mem_pick he
    exact ⟨e.1, e.2, hqueue, hready, OrderedMap.get?_setAll_of_mem (OrderedMap.nodup_pick _)
      (List.mem_map.mpr ⟨e, he, rfl⟩), rfl⟩

theorem handsOut_nil {queue' : CompensationQueue} : HandsOut event queue queue' [] :=
  fun _ h => absurd h List.not_mem_nil

theorem perform_spec : Wp (perform event.now event.call) queue
    (fun tasks queue' => Changes event queue queue' ∧ HandsOut event queue queue' tasks)
    (fun _ queue' => queue' = queue) := by
  cases hcall : event.call with
  | enqueue input =>
    simp only [perform, wp_bind, wp_pure]
    exact (enqueue_spec input).mono (fun _ _ h => ⟨h, handsOut_nil⟩) fun _ _ h => h
  | claimBatch tie limit =>
    have hreport : event.report? = none := by rw [CompensationEvent.report?, hcall]
    exact claimBatch_spec hreport
  | markCompleted input =>
    have hreport : event.report? = some (input, .completed) := by
      rw [CompensationEvent.report?, hcall]
    simp only [perform, wp_bind, wp_pure]
    exact (markCompleted_spec hreport).mono (fun _ _ h => ⟨h, handsOut_nil⟩) fun _ _ h => h
  | markFailed input retryAt =>
    have hreport : event.report? = some (input, .pending) := by
      rw [CompensationEvent.report?, hcall]
    simp only [perform, wp_bind, wp_pure]
    exact (markFailed_spec hreport).mono (fun _ _ h => ⟨h, handsOut_nil⟩) fun _ _ h => h

/-- **What an event does to one row.** -/
theorem rowChange (queue : CompensationQueue) (event : CompensationEvent) (k : CompensationKey) :
    RowChange queue event k (queue.rows.get? k) ((queue.step event).rows.get? k) := by
  have h : Wp (perform event.now event.call) queue (fun _ => Changes event queue)
      (fun _ => Changes event queue) :=
    perform_spec.mono (fun _ _ h => h.1) fun _ _ h => h ▸ .refl
  exact wp_final.mp h k

theorem handsOut (queue : CompensationQueue) (event : CompensationEvent) :
    HandsOut event queue (queue.step event) (queue.handedOut event) := by
  have hspec : Wp (perform event.now event.call) queue _ _ := perform_spec
  obtain ⟨hok, -⟩ := wp_iff_result.mp hspec
  rw [handedOut]
  cases htasks : result (perform event.now event.call) queue with
  | ok tasks => exact (hok tasks htasks).2
  | error _ => exact handsOut_nil

/-- The row a task would report on. -/
def reported (queue : CompensationQueue) (task : HarnessBillingCompensationTask) :
    Option CompensationRow :=
  task.settlementKey.toOption.bind (queue.reportedRow task)

theorem reported_of_names (hnames : task.Names k) (hget : queue.rows.get? k = some row)
    (haction : row.action = task.action) : queue.reported task = some row := by
  obtain ⟨hworkspace, hkey⟩ := hnames
  rw [reported, settlementKey_eq_ok.mpr hkey]
  exact reportedRow_eq_some.mpr ⟨by rw [hworkspace]; exact hget, haction⟩

/-- **A report in time**: the row stands as it is reported already, or it is not completed and no
later claim has it. -/
def Timely (queue : CompensationQueue) (event : CompensationEvent) : Prop :=
  ∀ report ∈ event.report?, ∀ row ∈ queue.reported report.1, row.status = report.2 ∨
    row.status ≠ .completed ∧ ¬ (0 < report.1.attempts ∧ report.1.attempts < row.attempts)

instance : Decidable (Timely queue event) := by
  unfold Timely
  infer_instance

/-! ## What a run should keep -/

/-- The queue after a run from the start. -/
abbrev after (events : List CompensationEvent) : CompensationQueue := runAll step events empty

/-- **A claim that was taken over**: the task was handed out, and later its row was handed out
again. -/
def TakenOver (events : List CompensationEvent) (task : HarnessBillingCompensationTask)
    (k : CompensationKey) : Prop :=
  ∃ before claim between claim' rest task', events = before ++ claim :: (between ++ claim' :: rest) ∧
    task ∈ (after before).handedOut claim ∧ task.Names k ∧
    task' ∈ (after (before ++ claim :: between)).handedOut claim' ∧ task'.Names k

/-- **Compensations end once.** -/
structure EndsOnce (events : List CompensationEvent) : Prop where
  /-- A completed row stays completed, and no claim counts on it. -/
  completed : ∀ before between rest k row, events = before ++ (between ++ rest) →
    (after before).rows.get? k = some row → row.status = .completed →
      ∃ row', (after (before ++ between)).rows.get? k = some row' ∧ row'.status = .completed ∧
        row'.attempts = row.attempts
  /-- No claim hands out a task for a completed row. -/
  unclaimed : ∀ before event rest k row task, events = before ++ event :: rest →
    (after before).rows.get? k = some row → row.status = .completed →
    task ∈ (after before).handedOut event → ¬ task.Names k
  /-- A worker whose claim was taken over leaves the status as it is. -/
  fenced : ∀ before event rest k row task status, events = before ++ event :: rest →
    event.report? = some (task, status) → TakenOver before task k →
    (after before).rows.get? k = some row →
      ∃ row', (after (before ++ [event])).rows.get? k = some row' ∧ row'.status = row.status
  /-- One settlement key has one action. -/
  action : ∀ before rest k k' row row', events = before ++ rest → k.2 = k'.2 →
    (after before).rows.get? k = some row → (after events).rows.get? k' = some row' →
      row.action = row'.action

/-! ## Invariants of every run -/

/-- A row is named by its own task, and the settlement key is one of its workspace. -/
def Keyed (queue : CompensationQueue) : Prop :=
  ∀ k row, queue.rows.get? k = some row →
    row.task.Names k ∧ row.payload.billingIdentity.workspaceId = k.1

theorem keyed_step (hkeyed : Keyed queue) (event : CompensationEvent) :
    Keyed (queue.step event) := by
  intro k row hrow
  have hchange := rowChange queue event k
  rw [hrow] at hchange
  cases hold : queue.rows.get? k with
  | none =>
    rw [hold] at hchange
    cases hchange with
    | inserted _ hnames hworkspace => exact ⟨hnames, hworkspace⟩
  | some old =>
    obtain ⟨⟨hws, hkey⟩, hworkspace⟩ := hkeyed k old hold
    rw [hold] at hchange
    cases hchange with
    | kept => exact ⟨⟨hws, hkey⟩, hworkspace⟩
    | claimed => exact ⟨⟨hws, hkey⟩, hworkspace⟩
    | reported task _ _ _ _ _ _ _ hpayload =>
      refine ⟨⟨?_, ?_⟩, ?_⟩
      · rw [← hws]
        exact congrArg (·.workspaceId) hpayload
      · rw [← hkey]
        exact congrArg (fun payload => payload.billingIdentity.settlementIdempotencyKey) hpayload
      · rw [hpayload, hworkspace]

theorem keyed_run (events : List CompensationEvent) : Keyed (after events) := by
  refine runAll_invariant Keyed (fun _ event h => keyed_step h event) events fun k row hrow => ?_
  rw [empty, OrderedMap.get?_empty] at hrow
  exact nomatch hrow

/-- The row is there, with the action it had and as many attempts at least. -/
def Continues (k : CompensationKey) (row : CompensationRow) (queue : CompensationQueue) : Prop :=
  ∃ row', queue.rows.get? k = some row' ∧ row'.action = row.action ∧ row.attempts ≤ row'.attempts

theorem continues_step (h : Continues k row queue) (event : CompensationEvent) :
    Continues k row (queue.step event) := by
  obtain ⟨old, hold, haction, hattempts⟩ := h
  have hchange := rowChange queue event k
  rw [hold] at hchange
  generalize hnew : (queue.step event).rows.get? k = new at hchange
  cases hchange with
  | kept => exact ⟨old, hnew, haction, hattempts⟩
  | claimed => exact ⟨_, hnew, haction, Nat.le_succ_of_le hattempts⟩
  | reported task _ row' _ _ _ haction' hattempts' =>
    exact ⟨row', hnew, haction'.trans haction, hattempts'.symm ▸ hattempts⟩

theorem continues_run (events : List CompensationEvent) (h : queue.rows.get? k = some row) :
    Continues k row (runAll step events queue) :=
  runAll_invariant (Continues k row) (fun _ event h => continues_step h event) events
    ⟨row, h, rfl, le_rfl⟩

/-- A task names one row. -/
theorem names_unique {k' : CompensationKey} (h : task.Names k) (h' : task.Names k') : k = k' :=
  Prod.ext (h.1.symm.trans h'.1) (Except.ok.inj (h.2.symm.trans h'.2))

/-- **A task handed out carries the attempts of its row**, which the claim counted. -/
theorem handedOut_row (hkeyed : Keyed queue) (htask : task ∈ queue.handedOut event)
    (hnames : task.Names k) : ∃ row, queue.rows.get? k = some row ∧
      row.status ≠ .completed ∧ (queue.step event).rows.get? k = some (row.claim event.now) ∧
      task.attempts = row.attempts + 1 := by
  obtain ⟨k', row, hrow, hready, hnew, rfl⟩ := handsOut queue event task htask
  obtain rfl : k = k' := names_unique hnames (hkeyed k' row hrow).1
  refine ⟨row, hrow, fun hcompleted => ?_, hnew, rfl⟩
  simp [CompensationRow.isReady, hcompleted] at hready

/-- **A claim that was taken over shows in the attempts.** -/
theorem TakenOver.attempts {events : List CompensationEvent} (h : TakenOver events task k)
    (hrow : (after events).rows.get? k = some row) :
    0 < task.attempts ∧ task.attempts < row.attempts := by
  obtain ⟨before, claim, between, claim', rest, task', rfl, htask, hnames, htask', hnames'⟩ := h
  obtain ⟨first, -, -, hfirst, hattempts⟩ := handedOut_row (keyed_run before) htask hnames
  obtain ⟨second, hsecond, -, hclaimed, -⟩ := handedOut_row (keyed_run _) htask' hnames'
  -- the row between the claims, and the row after both
  have hbetween := continues_run between hfirst
  have hlast := continues_run rest hclaimed
  rw [after, runAll_append, runAll_cons] at hsecond
  obtain ⟨row₁, hrow₁, -, hle₁⟩ := hbetween
  obtain rfl := Option.some.inj (hrow₁.symm.trans hsecond)
  rw [after, ← List.cons_append, ← List.append_assoc, runAll_append, runAll_cons] at hrow
  obtain ⟨row₂, hrow₂, -, hle₂⟩ := hlast
  obtain rfl := Option.some.inj (hrow₂.symm.trans hrow)
  simp only [CompensationRow.claim] at hle₁ hle₂
  omega

/-! ## Reports in time -/

/-- The row is completed, with so many attempts. -/
def Completed (k : CompensationKey) (attempts : Nat) (queue : CompensationQueue) : Prop :=
  ∃ row, queue.rows.get? k = some row ∧ row.status = .completed ∧ row.attempts = attempts

/-- **A report in time leaves a completed row completed**, and so does everything else. -/
theorem completed_step {attempts : Nat} (h : Completed k attempts queue)
    (htimely : Timely queue event) : Completed k attempts (queue.step event) := by
  obtain ⟨row, hrow, hstatus, hattempts⟩ := h
  have hchange := rowChange queue event k
  rw [hrow] at hchange
  generalize hnew : (queue.step event).rows.get? k = new at hchange
  cases hchange with
  | kept => exact ⟨row, hnew, hstatus, hattempts⟩
  | claimed _ hready => simp [CompensationRow.isReady, hstatus] at hready
  | reported task _ row' hreport hnames haction _ hattempts' =>
    have hreported := reported_of_names hnames hrow haction
    rcases htimely _ hreport row hreported with hsame | ⟨hopen, -⟩
    · exact ⟨row', hnew, hsame.symm.trans hstatus, hattempts'.trans hattempts⟩
    · exact absurd hstatus hopen

theorem completed_run (events : List CompensationEvent) (hrow : queue.rows.get? k = some row)
    (hstatus : row.status = .completed) (hadmits : Admits step Timely events queue) :
    Completed k row.attempts (runAll step events queue) :=
  runAll_induct (Completed k row.attempts) (fun _ _ h => completed_step h) events
    ⟨row, hrow, hstatus, rfl⟩ hadmits

/-- A report in time, of a worker whose claim was taken over, leaves the status. -/
theorem status_of_takenOver {status : CompensationStatus} (htimely : Timely queue event)
    (hreport : event.report? = some (task, status)) (hrow : queue.rows.get? k = some row)
    (hover : 0 < task.attempts ∧ task.attempts < row.attempts) :
    ∃ row', (queue.step event).rows.get? k = some row' ∧ row'.status = row.status := by
  have hchange := rowChange queue event k
  rw [hrow] at hchange
  generalize hnew : (queue.step event).rows.get? k = new at hchange
  cases hchange with
  | kept => exact ⟨row, rfl, rfl⟩
  | claimed _ _ hclaim => exact nomatch hclaim.symm.trans hreport
  | reported task' _ row' hreport' hnames' haction _ hattempts' =>
    obtain ⟨rfl, hstatus⟩ := Prod.mk.inj (Option.some.inj (hreport.symm.trans hreport'))
    have hreported := reported_of_names hnames' hrow haction
    rcases htimely _ hreport row hreported with hsame | ⟨-, hnot⟩
    · exact ⟨row', rfl, hstatus.symm.trans hsame.symm⟩
    · exact absurd hover hnot

/-- One settlement key is of one workspace, and has one row. -/
theorem key_unique {queue' : CompensationQueue} {k' : CompensationKey} (hkeyed : Keyed queue)
    (hkeyed' : Keyed queue') (hrow : queue.rows.get? k = some row)
    (hrow' : queue'.rows.get? k' = some row') (hsame : k.2 = k'.2) : k = k' := by
  obtain ⟨⟨-, hkey⟩, hworkspace⟩ := hkeyed k row hrow
  obtain ⟨⟨-, hkey'⟩, hworkspace'⟩ := hkeyed' k' row' hrow'
  have hws := BillingIdentity.workspaceId_of_key hkey (hsame ▸ hkey')
  exact Prod.ext (hworkspace.symm.trans (hws.trans hworkspace')) hsame

/-- **With reports in time, compensations end once.** -/
theorem endsOnce_run (events : List CompensationEvent) (h : Admits step Timely events empty) :
    EndsOnce events where
  completed := by
    rintro before between rest k row rfl hrow hstatus
    rw [admits_append, admits_append] at h
    obtain ⟨row', hrow', hstatus', hattempts⟩ := completed_run between hrow hstatus h.2.1
    rw [← runAll_append] at hrow'
    exact ⟨row', hrow', hstatus', hattempts⟩
  unclaimed := by
    rintro before event rest k row task rfl hrow hstatus htask hnames
    obtain ⟨row', hrow', hopen, -⟩ := handedOut_row (keyed_run before) htask hnames
    obtain rfl := Option.some.inj (hrow.symm.trans hrow')
    exact hopen hstatus
  fenced := by
    rintro before event rest k row task status rfl hreport hover hrow
    rw [admits_append] at h
    obtain ⟨row', hrow', hstatus⟩ := status_of_takenOver h.2.1 hreport hrow
      (hover.attempts hrow)
    refine ⟨row', ?_, hstatus⟩
    rw [after, runAll_append]
    exact hrow'
  action := by
    rintro before rest k k' row row' rfl hsame hrow hrow'
    obtain rfl := key_unique (keyed_run before) (keyed_run _) hrow hrow' hsame
    obtain ⟨row'', hrow'', haction, -⟩ := continues_run rest hrow
    rw [← runAll_append] at hrow''
    obtain rfl := Option.some.inj (hrow''.symm.trans hrow')
    exact haction.symm

/-! ### A slow worker -/

/-- The task of a settlement, as its so-many-th claim hands it out. -/
def slowTask (attempts : Nat) : HarnessBillingCompensationTask where
  workspaceId := "salon"
  taskId := "flow"
  billingTaskId := "task"
  billingIdentity := {
    workspaceId := "salon"
    taskId := "task"
    workId := "work"
    workflowId := "flow"
    quoteRef := ⟨"quote", "1"⟩
    creditHoldOperationId := none
    creditUsageOperationId := some "usage"
    productUsageReservationId := none
    reservationId := "typed|-|usage|-"
    carrierUnitId := some "copy"
    carrierUnitIds := some ["copy"]
    carrierBillableUnits := some 1
    packageBilling := none
    planId := none
    planRevision := none
    snapshotHash := none }
  quoteId := "quote"
  quoteRevision := "1"
  action := .commit
  attempts

/-- A worker is slow, a second one claims the row after a minute and completes it. -/
def slowEvents : List CompensationEvent :=
  [⟨0, .enqueue (slowTask 0)⟩, ⟨1, .claimBatch (fun _ => 0) 20⟩,
    ⟨61000000, .claimBatch (fun _ => 0) 20⟩, ⟨61000001, .markCompleted (slowTask 2)⟩]

/-- A late completion is still in time. -/
theorem endsOnce_run_slow :
    EndsOnce (slowEvents ++ [⟨61000002, .markCompleted (slowTask 1)⟩]) :=
  endsOnce_run _ (by decide +kernel)

/-- **A late failure is not**: the completed row is pending again. -/
theorem not_endsOnce_run : ¬ ∀ events, EndsOnce events := by
  intro h
  let k : CompensationKey := ("salon", (slowTask 0).settlementKey.toOption.getD "")
  have hdone : ((after slowEvents).rows.get? k).map (·.status) = some .completed := by
    decide +kernel
  have hundone : ((after (slowEvents ++ [⟨61000002, .markFailed (slowTask 1) 91000000⟩])).rows.get?
      k).map (·.status) = some .pending := by
    decide +kernel
  obtain ⟨row, hrow, hstatus⟩ := Option.map_eq_some_iff.mp hdone
  obtain ⟨row', hrow', hstatus', -⟩ := (h (slowEvents ++ [_])).completed slowEvents [_] [] k row
    (by rw [List.append_nil]) hrow hstatus
  rw [hrow', Option.map_some, hstatus'] at hundone
  exact nomatch hundone

end CompensationQueue

end MeiyeAgent
