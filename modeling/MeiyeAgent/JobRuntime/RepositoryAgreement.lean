import MeiyeAgent.JobRuntime.MemoryTracerJobs
import MeiyeAgent.JobRuntime.PostgresTracerJobs
import MeiyeAgent.Machinery.SideBySide

/-!
# JobRuntime/RepositoryAgreement — the two tracer repositories side by side

A row is the record in memory with its lease beside it (`rowOf`), and every call keeps it so: the
simulation `Mirrors` is carried through each pair of programs by the rules of `Both`.

Three calls come out differently, and `Meets` leaves out exactly these: a new job the queue
refuses stays in memory, a result of a job that is not there is answered by another code, and a
failed job whose provider task is the empty text is resumed in memory alone.
-/

open Effect

namespace MeiyeAgent

/-! ## The two repositories -/

structure TracerRepositories where
  memory : MemoryTracerJobs
  postgres : PostgresTracerJobs

/-- How a call ends: with a decision, with a record, or with an error's code. -/
inductive TracerEnding
  | decided (decision : TracerDecision)
  | returned
  | failed (code : Option JobRuntimeErrorCode)
  deriving DecidableEq

def endingOf : Except JobError TracerAnswer → TracerEnding
  | .ok (.reservation reservation) => .decided reservation.decision
  | .ok (.record _) => .returned
  | .error e => .failed e.code

/-- What the two have to hold alike of a job. -/
structure TracerFacts where
  status : TracerJobStatus
  acceptance : Option TracerAcceptance
  providerTaskRef : Option String
  output : Option JobObject
  error : Option String
  attempts : Nat
  payloadHash : String
  activeExecutionMs : Nat

def factsOf (record : TracerJobRecord) : TracerFacts where
  status := record.status
  acceptance := record.acceptance
  providerTaskRef := record.providerTaskRef
  output := record.output
  error := record.error
  attempts := record.attempts
  payloadHash := record.payloadHash
  activeExecutionMs := record.activeExecutionMs

namespace TracerRepositories

variable (setup : TracerSetup)

def empty : TracerRepositories := ⟨.empty, .empty⟩

/-- A call, made of both. -/
def step (s : TracerRepositories) (call : TracerCall) : TracerRepositories where
  memory := final (MemoryTracerJobs.perform setup call) s.memory
  postgres := final (PostgresTracerJobs.perform setup call) s.postgres

/-- **The call ends alike and leaves the same facts.** -/
structure Agree (s : TracerRepositories) (call : TracerCall) : Prop where
  ending : endingOf (result (MemoryTracerJobs.perform setup call) s.memory) =
    endingOf (result (PostgresTracerJobs.perform setup call) s.postgres)
  facts : ∀ key, ((s.step setup call).memory.get? key).map factsOf =
    ((s.step setup call).postgres.get? key).map factsOf

end TracerRepositories

/-! ## A job in memory and its row -/

/-- The row of a record and its lease. -/
def rowOf (record : TracerJobRecord) (lease : Option TracerLease) : TracerRow where
  workspaceId := record.workspaceId
  jobId := record.jobId
  kind := record.kind
  runAt := record.runAt.bind (·.time?)
  payload := record.payload
  payloadHash := record.payloadHash
  status := record.status
  acceptance := record.acceptance
  effectIdempotencyKey := record.effectIdempotencyKey
  activeExecutionMs := record.activeExecutionMs
  leaseToken := lease.map (·.token)
  leaseStartedAt := lease.map (·.startedAt)
  leaseExpiresAt := lease.map (·.expiresAt)
  providerTaskRef := record.providerTaskRef
  output := record.output
  error := record.error
  attempts := record.attempts
  createdAt := record.createdAt
  updatedAt := record.updatedAt

/-- **A record and its lease fit**: only an open job is leased, and its record says until when. -/
structure LeaseFits (record : TracerJobRecord) (lease : Option TracerLease) : Prop where
  open_ : lease.isSome = true → record.status.isTerminal = false
  expiry : record.leaseExpiresAt = lease.map (·.expiresAt)
  valid : record.runAt ≠ some .invalid

/-- A job in memory, and its row. -/
inductive JobMirrors : Option TracerJobRecord → Option TracerLease → Option TracerRow → Prop
  | absent : JobMirrors none none none
  | present {record : TracerJobRecord} {lease : Option TracerLease}
      (kept : LeaseFits record lease) : JobMirrors (some record) lease (some (rowOf record lease))

/-- **The table mirrors the memory**, job by job. -/
def Mirrors (m : MemoryTracerJobs) (p : PostgresTracerJobs) : Prop :=
  ∀ key, JobMirrors (m.records.get? key) (m.leases.get? key) (p.rows.get? key)

variable {setup : TracerSetup} {m m' : MemoryTracerJobs} {p p' : PostgresTracerJobs}
  {key : TracerKey} {record : TracerJobRecord} {lease : Option TracerLease}

theorem mapRow_rowOf (h : LeaseFits record lease) : mapRow (rowOf record lease) = record := by
  obtain ⟨⟨workspaceId, jobId, kind, runAt, payload⟩, status⟩ := record
  obtain ⟨-, hexpiry, hvalid⟩ := h
  obtain rfl := hexpiry
  cases runAt with
  | none => rfl
  | some runAt =>
    cases runAt with
    | instant ms => rfl
    | invalid => exact absurd rfl hvalid

theorem Mirrors.get? (h : Mirrors m p) (key : TracerKey) : p.get? key = m.get? key := by
  have hkey := h key
  rw [PostgresTracerJobs.get?, MemoryTracerJobs.get?]
  generalize m.records.get? key = record, m.leases.get? key = lease, p.rows.get? key = row at hkey
  cases hkey with
  | absent => rfl
  | present kept => exact congrArg some (mapRow_rowOf kept)

/-- The record of a job, and its row. -/
theorem Mirrors.of_get? (h : Mirrors m p) (hrecord : m.get? key = some record) :
    LeaseFits record (m.leases.get? key) ∧
      p.rows.get? key = some (rowOf record (m.leases.get? key)) := by
  have hkey := h key
  rw [MemoryTracerJobs.get?] at hrecord
  rw [hrecord] at hkey
  generalize m.leases.get? key = lease, p.rows.get? key = row at hkey
  cases hkey with
  | present kept => exact ⟨kept, rfl⟩

/-- **Writing one job** on both sides leaves the others mirrored. -/
theorem Mirrors.write (h : Mirrors m p) (hrecords : m'.records = m.records.set key record)
    (hleases : ∀ k, k ≠ key → m'.leases.get? k = m.leases.get? k)
    (hrows : ∀ k, k ≠ key → p'.rows.get? k = p.rows.get? k)
    (kept : LeaseFits record (m'.leases.get? key))
    (hrow : p'.rows.get? key = some (rowOf record (m'.leases.get? key))) : Mirrors m' p' := by
  intro k
  rw [hrecords]
  by_cases hk : k = key
  · subst hk
    rw [OrderedMap.get?_set_self, hrow]
    exact .present kept
  · rw [OrderedMap.get?_set_ne hk, hleases k hk, hrows k hk]
    exact h k

/-- Writing one job, its lease as it was. -/
theorem Mirrors.setRecord (h : Mirrors m p) (kept : LeaseFits record (m.leases.get? key)) :
    Mirrors (m.setRecord key record) (p.setRow key (rowOf record (m.leases.get? key))) :=
  h.write rfl (fun _ _ => rfl) (fun _ hk => OrderedMap.get?_set_ne hk) kept
    OrderedMap.get?_set_self

/-! ## Calls, side by side -/

/-- **Both return the same, mirrored.** -/
def Same {α : Type} (a : α) (m : MemoryTracerJobs) (b : α) (p : PostgresTracerJobs) : Prop :=
  a = b ∧ Mirrors m p

/-- Both throw the same code, mirrored. -/
def SameCode (e : JobError) (m : MemoryTracerJobs) (d : JobError) (p : PostgresTracerJobs) : Prop :=
  e.code = d.code ∧ Mirrors m p

/-- A job that has to be there is there for both, or for neither. -/
theorem both_require {α β : Type} {f : TracerJobRecord → MemoryTracerJobs.Op α}
    {g : TracerJobRecord → PostgresTracerJobs.Op β}
    {Q : α → MemoryTracerJobs → β → PostgresTracerJobs → Prop}
    {E : JobError → MemoryTracerJobs → JobError → PostgresTracerJobs → Prop} (h : Mirrors m p)
    (hf : ∀ record, m.get? key = some record → Both (f record) m (g record) p Q E)
    (he : E notFound m notFound p) : Both (MemoryTracerJobs.requireRecord key >>= f) m
      (PostgresTracerJobs.require key >>= g) p Q E := by
  rw [MemoryTracerJobs.requireRecord, PostgresTracerJobs.require]
  refine both_bind (both_get ?_)
  rw [h.get? key]
  cases hrecord : m.get? key with
  | none => exact both_throw he
  | some record => exact both_pure (hf record hrecord)

variable {E : JobError → PostgresTracerJobs → Prop}

/-- What an `UPDATE` does to the row that is there. -/
theorem wp_updateRow_some {holds : TracerRow → Bool} {set : TracerRow → TracerRow} {row : TracerRow}
    {Q : Option TracerJobRecord → PostgresTracerJobs → Prop} (hrow : p.rows.get? key = some row) :
    Wp (PostgresTracerJobs.updateRow key holds set) p Q E ↔
      if holds row then Q (some (mapRow (set row))) (p.setRow key (set row)) else Q none p := by
  rw [PostgresTracerJobs.wp_updateRow, hrow]
  cases h : holds row <;> simp [h]

variable {now : Int}

theorem leaseFits_new {input : TracerJobInput} (hvalid : validateDurableJobInput input = .ok ()) :
    LeaseFits (MemoryTracerJobs.newRecord setup input now) none := by
  refine ⟨nofun, rfl, fun hinvalid => ?_⟩
  have hinvalid : input.runAt = some .invalid := hinvalid
  simp [validateDurableJobInput, hinvalid] at hvalid

/-- Where no job is, there is neither lease nor row. -/
theorem Mirrors.of_get?_none (h : Mirrors m p) (hnone : m.get? key = none) :
    m.leases.get? key = none := by
  have hkey := h key
  rw [MemoryTracerJobs.get?] at hnone
  rw [hnone] at hkey
  generalize m.leases.get? key = lease, p.rows.get? key = row at hkey
  cases hkey
  rfl

theorem wp_require_some {Q : TracerJobRecord → PostgresTracerJobs → Prop}
    (hget : p.get? key = some record) : Wp (PostgresTracerJobs.require key) p Q E ↔ Q record p := by
  simp [PostgresTracerJobs.wp_require, hget]

theorem wp_require_none {Q : TracerJobRecord → PostgresTracerJobs → Prop} (hget : p.get? key = none) :
    Wp (PostgresTracerJobs.require key) p Q E ↔ E notFound p := by
  simp [PostgresTracerJobs.wp_require, hget]

theorem both_submit (h : Mirrors m p) {input : TracerJobInput} {refusal : Option String}
    (hmeets : m.get? input.key = none → validateDurableJobInput input = .ok () →
      refusal = none) : Both (MemoryTracerJobs.submit setup input now refusal) m
      (PostgresTracerJobs.submit setup input now refusal) p Same SameCode := by
  refine both_check (fun _ hvalid => ?_) fun e _ => ⟨rfl, h⟩
  cases hget : m.get? input.key with
  | some existing =>
    have hget' := (h.get? input.key).trans hget
    simp only [both_iff, wp_bind, wp_get, wp_transaction, hget, hget', MemoryTracerJobs.submitTo,
      PostgresTracerJobs.insertUnlessSame]
    cases assertPayloadHash existing.payloadHash (payloadHash setup input) with
    | error e =>
      simp only [check_error, wp_throw]
      exact ⟨rfl, h⟩
    | ok =>
      cases queueTakes refusal with
      | error e =>
        simp only [check_ok, check_error, wp_pure, wp_throw]
        exact ⟨rfl, h⟩
      | ok =>
        simp only [check_ok, wp_pure, wp_require_some hget']
        exact ⟨rfl, h⟩
  | none =>
    obtain rfl := hmeets hget hvalid
    have hget' := (h.get? input.key).trans hget
    have hlease := h.of_get?_none hget
    have kept : LeaseFits (MemoryTracerJobs.newRecord setup input now) none := leaseFits_new hvalid
    have hafter : Mirrors (m.setRecord input.key (MemoryTracerJobs.newRecord setup input now))
        (p.setRow input.key (PostgresTracerJobs.newRow setup input now)) := by
      have hset := h.setRecord (hlease ▸ kept)
      rwa [hlease] at hset
    have hafter' := (hafter.get? input.key).trans OrderedMap.get?_set_self
    simp only [both_iff, wp_bind, wp_get, wp_transaction, hget, hget', MemoryTracerJobs.submitTo,
      PostgresTracerJobs.insertUnlessSame, wp_modify, queueTakes, check_pure, wp_pure,
      wp_require_some hafter']
    exact ⟨rfl, hafter⟩

theorem wp_updateRow_none {holds : TracerRow → Bool} {set : TracerRow → TracerRow}
    {Q : Option TracerJobRecord → PostgresTracerJobs → Prop} (hget : p.get? key = none) :
    Wp (PostgresTracerJobs.updateRow key holds set) p Q E ↔ Q none p := by
  simp [PostgresTracerJobs.wp_updateRow, Option.map_eq_none_iff.mp hget]

theorem leaseFits_of_status {r : TracerJobRecord} (kept : LeaseFits record lease)
    (hopen : record.status.isTerminal = false → r.status.isTerminal = false)
    (hexpiry : r.leaseExpiresAt = record.leaseExpiresAt) (hrunAt : r.runAt = record.runAt) :
    LeaseFits r lease :=
  ⟨fun h => hopen (kept.open_ h), hexpiry.trans kept.expiry, hrunAt ▸ kept.valid⟩

theorem both_requestCancel (h : Mirrors m p) (key : TracerKey) (now : Int) :
    Both (MemoryTracerJobs.requestCancel key now) m (PostgresTracerJobs.requestCancel key now) p
      Same SameCode := by
  cases hget : m.get? key with
  | none =>
    have hget' := (h.get? key).trans hget
    simp only [both_iff, MemoryTracerJobs.requestCancel, MemoryTracerJobs.requireRecord,
      PostgresTracerJobs.requestCancel, PostgresTracerJobs.cancelledUnless, wp_bind, wp_get, hget,
      Option.elim, wp_updateRow_none hget', wp_require_none hget', check_throw, wp_throw]
    exact ⟨rfl, h⟩
  | some record =>
    obtain ⟨kept, hrow⟩ := h.of_get? hget
    have hget' := (h.get? key).trans hget
    have hstatus : (rowOf record (m.leases.get? key)).status = record.status := rfl
    simp only [both_iff, MemoryTracerJobs.requestCancel, MemoryTracerJobs.requireRecord,
      PostgresTracerJobs.requestCancel, wp_bind, wp_get, hget, Option.elim, check_pure, wp_pure,
      wp_updateRow_some hrow, hstatus]
    cases hterminal : record.status.isTerminal with
    | false =>
      have hopen := mt TracerJobStatus.isTerminal_iff.mpr (Bool.eq_false_iff.mp hterminal)
      rw [if_neg fun hs => hopen (.inr (.inr hs)),
        if_neg fun hs => hopen (hs.imp_right .inl)]
      have kept' : LeaseFits (MemoryTracerJobs.cancelRequested record now) (m.leases.get? key) :=
        leaseFits_of_status kept (fun _ => rfl) rfl rfl
      simp only [wp_bind, wp_modify, wp_pure, Bool.not_false, if_true,
        PostgresTracerJobs.cancelledUnless]
      exact ⟨(mapRow_rowOf kept').symm, h.setRecord kept'⟩
    | true =>
      simp only [Bool.not_true, Bool.false_eq_true, if_false, PostgresTracerJobs.cancelledUnless,
        wp_bind, wp_require_some hget', PostgresTracerJobs.whyNotCancelled]
      by_cases hcancelled : record.status = .cancelled
      · simp only [if_pos hcancelled, wp_pure, check_pure]
        exact ⟨rfl, h⟩
      · have hended : record.status = .completed ∨ record.status = .failed := by
          rcases TracerJobStatus.isTerminal_iff.mp hterminal with hs | hs | hs
          · exact .inl hs
          · exact .inr hs
          · exact absurd hs hcancelled
        simp only [if_neg hcancelled, if_pos hended, check_throw, wp_throw]
        exact ⟨rfl, h⟩

theorem both_recordCancelledReconciliation (h : Mirrors m p) (key : TracerKey)
    (providerTaskRef reconciliationKey : String) (output : JobObject) (now : Int) :
    Both (MemoryTracerJobs.recordCancelledReconciliation key providerTaskRef reconciliationKey
        output now) m
      (PostgresTracerJobs.recordCancelledReconciliation key providerTaskRef reconciliationKey
        output now) p Same SameCode := by
  refine both_transaction (both_require h (fun record hget => ?_) ⟨rfl, h⟩)
  refine both_check (fun _ htarget => ?_) fun e _ => ⟨rfl, h⟩
  refine both_ite (fun _ => both_pure ⟨rfl, h⟩) fun _ => ?_
  obtain ⟨kept, hrow⟩ := h.of_get? hget
  have hstatus : record.status = .cancelled := by
    simp only [assertCancelledReconciliationTarget, guard_eq_ok] at htarget
    exact not_not.mp htarget.1
  have hstatus' : (rowOf record (m.leases.get? key)).status = .cancelled := hstatus
  have kept' : LeaseFits (MemoryTracerJobs.reconciled record output now) (m.leases.get? key) :=
    leaseFits_of_status kept id rfl rfl
  simp only [both_iff, wp_bind, wp_modify, wp_pure, wp_updateRow_some hrow, hstatus', decide_true,
    if_true, PostgresTracerJobs.returned, Option.elim, check_pure]
  exact ⟨(mapRow_rowOf kept').symm, h.setRecord kept'⟩

/-! ### Leases -/

theorem rowOf_leased {uuid : String} (hexpired : lease.any (now < ·.expiresAt) = false) :
    PostgresTracerJobs.leased setup (leaseDecision record.status) now uuid (rowOf record lease) =
      rowOf (MemoryTracerJobs.leased setup record lease now)
        (some ⟨uuid, now, now + setup.leaseDurationMs⟩) := by
  have hms : PostgresTracerJobs.expiredMs (rowOf record lease) now =
      lease.elim 0 fun l => elapsedMilliseconds l.startedAt (min now l.expiresAt) := by
    cases lease with
    | none => rfl
    | some lease =>
      have hle : lease.expiresAt ≤ now := not_lt.mp (of_decide_eq_false hexpired)
      exact if_pos hle
  simp only [PostgresTracerJobs.leased, hms]
  rfl

theorem both_reserveOpen (h : Mirrors m p) {uuid : String}
    {E : JobError → MemoryTracerJobs → JobError → PostgresTracerJobs → Prop}
    (hget : m.get? key = some record) (hopen : record.status.isTerminal = false) :
    Both (MemoryTracerJobs.reserveFrom setup key now uuid record (m.leases.get? key)) m
      (PostgresTracerJobs.reserveOpen setup key now uuid record) p Same E := by
  obtain ⟨kept, hrow⟩ := h.of_get? hget
  rw [MemoryTracerJobs.reserveFrom, PostgresTracerJobs.reserveOpen, kept.expiry, Option.any_map]
  refine both_ite (fun _ => both_pure ⟨rfl, h⟩) fun hexpired => ?_
  have hleased : PostgresTracerJobs.leased setup (leaseDecision record.status) now uuid _ = _ :=
    rowOf_leased (Bool.eq_false_of_not_eq_true hexpired)
  have kept' : LeaseFits (MemoryTracerJobs.leased setup record (m.leases.get? key) now)
      (some ⟨uuid, now, now + setup.leaseDurationMs⟩) := by
    refine ⟨fun _ => ?_, rfl, kept.valid⟩
    simp only [MemoryTracerJobs.leased]
    split
    · rfl
    · exact hopen
  simp only [both_iff, wp_bind, wp_modify, wp_pure, wp_updateRow_some hrow, if_true,
    PostgresTracerJobs.returned, Option.elim, check_pure, hleased, mapRow_rowOf kept']
  refine ⟨rfl, h.write rfl (fun _ hk => OrderedMap.get?_set_ne hk)
    (fun _ hk => OrderedMap.get?_set_ne hk) ?_ ?_⟩
  · exact OrderedMap.get?_set_self (m := m.leases) ▸ kept'
  · exact OrderedMap.get?_set_self.trans (by
      rw [show ((m.setLease key ⟨uuid, now, now + setup.leaseDurationMs⟩).setRecord key
        (MemoryTracerJobs.leased setup record (m.leases.get? key) now)).leases.get? key =
          some ⟨uuid, now, now + setup.leaseDurationMs⟩ from OrderedMap.get?_set_self])

theorem both_reserve (h : Mirrors m p) (key : TracerKey) (now : Int) (uuid : String) :
    Both (MemoryTracerJobs.reserve setup key now uuid) m
      (PostgresTracerJobs.reserve setup key now uuid) p Same SameCode := by
  refine both_transaction (both_require h (fun record hget => ?_) ⟨rfl, h⟩)
  have hreserve : ∀ {E}, record.status.isTerminal = false →
      Both (get >>= fun m => MemoryTracerJobs.reserveFrom setup key now uuid record
        (m.leases.get? key)) m (PostgresTracerJobs.reserveOpen setup key now uuid record) p
          Same E := by
    intro E hopen
    rw [both_iff, wp_bind, wp_get]
    exact both_reserveOpen h hget hopen
  cases hstatus : record.status with
  | completed | failed | cancelled => exact both_pure ⟨rfl, h⟩
  | queued | running | unknown | cancel_requested => exact hreserve (hstatus ▸ rfl)

/-! ### Results -/

theorem nextStatus_eq {status : TracerJobStatus}
    (h : status = .queued ∨ status = .running ∨ status = .unknown) :
    PostgresTracerJobs.nextStatus record.status status =
      MemoryTracerJobs.unlessCancelled record status := by
  rw [PostgresTracerJobs.nextStatus, MemoryTracerJobs.unlessCancelled, ite_not]
  by_cases hs : record.status = .cancel_requested
  · rw [if_pos ⟨hs, h⟩, if_pos hs]
  · rw [if_neg fun hc => hs hc.1, if_neg hs]

/-- The lease's time, of the row and of the lease. -/
theorem leaseMs_eq (now : Int) : (lease.map (·.startedAt)).elim 0 (elapsedMilliseconds · now) =
    lease.elim 0 fun l => elapsedMilliseconds l.startedAt now := by
  cases lease <;> rfl

/-- **What a result makes of a record, it makes of its row**; or the row is not the one it needs. -/
theorem updater_spec (result : TracerResult) (now : Int) :
    (∃ updated, MemoryTracerJobs.updater record result = .ok updated ∧
      (PostgresTracerJobs.patch result).requiredCurrentStatus.all (record.status = ·) = true ∧
      PostgresTracerJobs.patched (PostgresTracerJobs.patch result) now (rowOf record lease) =
        rowOf (MemoryTracerJobs.released updated lease now) none ∧
      updated.runAt = record.runAt) ∨
    ∃ e, MemoryTracerJobs.updater record result = .error e ∧ e.code = staleResult.code ∧
      (PostgresTracerJobs.patch result).requiredCurrentStatus.all (record.status = ·) = false := by
  have hms : (lease.map (·.startedAt)).elim 0 (elapsedMilliseconds · now) = _ := leaseMs_eq now
  have hqueued : PostgresTracerJobs.nextStatus record.status .queued = _ := nextStatus_eq (.inl rfl)
  have hrunning : PostgresTracerJobs.nextStatus record.status .running = _ :=
    nextStatus_eq (.inr (.inl rfl))
  have hunknown : PostgresTracerJobs.nextStatus record.status .unknown = _ :=
    nextStatus_eq (.inr (.inr rfl))
  cases result with
  | recordRejected error =>
    refine .inl ⟨_, rfl, rfl, ?_, rfl⟩
    simp only [PostgresTracerJobs.patched, PostgresTracerJobs.patch, rowOf, hms, hqueued]
    rfl
  | recordUnknown error taskRef =>
    refine .inl ⟨_, rfl, rfl, ?_, rfl⟩
    simp only [PostgresTracerJobs.patched, PostgresTracerJobs.patch, rowOf, hms, hunknown]
    rfl
  | recordAccepted taskRef delivery error =>
    refine .inl ⟨_, rfl, rfl, ?_, rfl⟩
    cases delivery <;>
      simp only [PostgresTracerJobs.patched, PostgresTracerJobs.patch, rowOf, hms, hunknown,
        hrunning, reduceCtorEq, if_true, if_false] <;> rfl
  | recordRejectedTerminal error output taskRef | complete output taskRef | fail error taskRef =>
    refine .inl ⟨_, rfl, rfl, ?_, rfl⟩
    simp only [PostgresTracerJobs.patched, PostgresTracerJobs.patch, rowOf, hms,
      PostgresTracerJobs.nextStatus, reduceCtorEq, or_self, and_false, if_false]
    rfl
  | recordCancelled output taskRef acceptance =>
    by_cases hstatus : record.status = .cancel_requested
    · refine .inl ⟨_, if_neg (not_not_intro hstatus), decide_eq_true hstatus, ?_, rfl⟩
      simp only [PostgresTracerJobs.patched, PostgresTracerJobs.patch, rowOf, hms,
        PostgresTracerJobs.nextStatus, reduceCtorEq, or_self, and_false, if_false]
      rfl
    · exact .inr ⟨_, if_pos hstatus, rfl, decide_eq_false hstatus⟩

theorem both_update (h : Mirrors m p) (leaseToken : String) (result : TracerResult) (now : Int)
    (hmeets : (m.get? key).isSome = true) :
    Both (MemoryTracerJobs.update key leaseToken result now) m
      (PostgresTracerJobs.update key leaseToken result now) p Same SameCode := by
  obtain ⟨record, hget⟩ := Option.isSome_iff_exists.mp hmeets
  obtain ⟨kept, hrow⟩ := h.of_get? hget
  simp only [both_iff, MemoryTracerJobs.update, MemoryTracerJobs.requireRecord,
    PostgresTracerJobs.update, wp_bind, wp_get, hget, Option.elim, check_pure, wp_pure,
    wp_updateRow_some hrow]
  have hcurrent : PostgresTracerJobs.isCurrent (PostgresTracerJobs.patch result) leaseToken
      (rowOf record (m.leases.get? key)) = true ↔
        ¬ ((m.leases.get? key).map (·.token) ≠ some leaseToken ∨
          record.status.isTerminal = true) ∧
        (PostgresTracerJobs.patch result).requiredCurrentStatus.all (record.status = ·) = true := by
    simp only [PostgresTracerJobs.isCurrent, decide_eq_true_eq, not_or, not_not, and_assoc]
    rfl
  by_cases hstale : (m.leases.get? key).map (·.token) ≠ some leaseToken ∨
      record.status.isTerminal = true
  · have hnot := fun hc => (hcurrent.mp hc).1 hstale
    simp only [if_pos hstale, if_neg hnot, wp_throw, PostgresTracerJobs.returned, Option.elim,
      check_throw, wp_bind]
    exact ⟨rfl, h⟩
  obtain ⟨updated, hok, hall, hrow', hrunAt⟩ | ⟨e, herror, hcode, hall⟩ :=
    @updater_spec record (m.leases.get? key) result now
  · have kept' : LeaseFits (MemoryTracerJobs.released updated (m.leases.get? key) now) none :=
      ⟨by rintro ⟨⟩, rfl, fun hinvalid => kept.valid (hrunAt ▸ hinvalid)⟩
    have hlease : (((m.setRecord key (MemoryTracerJobs.released updated (m.leases.get? key)
        now)).dropLease key).leases.get? key) = none := OrderedMap.get?_erase.trans (if_pos rfl)
    simp only [if_neg hstale, if_pos (hcurrent.mpr ⟨hstale, hall⟩), hok, check_ok, wp_pure, wp_bind,
      wp_modify, PostgresTracerJobs.returned, Option.elim, check_pure, hrow', mapRow_rowOf kept']
    refine ⟨rfl, h.write (rfl : _ = m.records.set key _) (fun k hk => ?_)
      (fun _ hk => OrderedMap.get?_set_ne hk) ?_ ?_⟩
    · exact OrderedMap.get?_erase.trans (if_neg hk)
    · exact hlease ▸ kept'
    · exact OrderedMap.get?_set_self.trans (hlease ▸ rfl)
  · have hnot : ¬ PostgresTracerJobs.isCurrent (PostgresTracerJobs.patch result) leaseToken
        (rowOf record (m.leases.get? key)) = true :=
      fun hc => Bool.false_ne_true (hall.symm.trans (hcurrent.mp hc).2)
    simp only [if_neg hstale, if_neg hnot, herror, check_error, wp_throw, wp_bind,
      PostgresTracerJobs.returned, Option.elim, check_throw]
    exact ⟨hcode, h⟩

/-! ### Resuming -/

theorem rowOf_requeued {resumed : TracerJobInput} :
    PostgresTracerJobs.requeued setup resumed now (rowOf record lease) =
      rowOf (MemoryTracerJobs.requeued setup record resumed now) none := rfl

/-- A job that may be resumed has failed, under the payload expected. -/
theorem failed_of_checks {expected : String}
    (hhash : assertPayloadHash record.payloadHash expected = .ok ())
    (htarget : assertFailedResumeTarget record = .ok ()) :
    record.status = .failed ∧ record.payloadHash = expected := by
  simp only [assertFailedResumeTarget, guard_eq_ok] at htarget
  refine ⟨not_not.mp htarget.1, ?_⟩
  by_contra hne
  rw [assertPayloadHash, if_neg hne] at hhash
  cases hhash

/-- It is found by the `UPDATE` too, unless its provider task is the empty text. -/
theorem isResumable_of_checks {expected : String}
    (hhash : assertPayloadHash record.payloadHash expected = .ok ())
    (htarget : assertFailedResumeTarget record = .ok ())
    (hmeets : record.providerTaskRef ≠ some "") :
    PostgresTracerJobs.isResumable expected (rowOf record lease) = true := by
  obtain ⟨hfailed, hexpected⟩ := failed_of_checks hhash htarget
  simp only [assertFailedResumeTarget, guard_eq_ok, last_guard_eq_ok] at htarget
  have href : record.providerTaskRef = none := by
    cases hvalue : record.providerTaskRef with
    | none => rfl
    | some value =>
      have hgiven := htarget.2
      rw [hvalue, isGiven, Option.any_some, decide_eq_true_eq, not_not] at hgiven
      exact absurd (hgiven ▸ hvalue) hmeets
  exact decide_eq_true ⟨hfailed, hexpected, href⟩

theorem both_resumeFailed (h : Mirrors m p) {input : ResumeFailedTracerJobInput}
    {refusal : Option String}
    (hmeets : ∀ record, m.get? input.key = some record → record.status = .failed →
      record.payloadHash = input.expectedPayloadHash → setup.resumes = true →
        record.providerTaskRef ≠ some "") :
    Both (MemoryTracerJobs.resumeFailed setup input now refusal) m
      (PostgresTracerJobs.resumeFailed setup input now refusal) p Same SameCode := by
  refine both_transaction (both_require h (fun record hget => ?_) ⟨rfl, h⟩)
  refine both_check (fun _ hhash => ?_) fun e _ => ⟨rfl, h⟩
  refine both_check (fun _ htarget => ?_) fun e _ => ⟨rfl, h⟩
  refine both_ite (fun _ => both_bind (both_throw ⟨rfl, h⟩)) fun hresumes => ?_
  refine both_check (fun _ _ => ?_) fun e _ => ⟨rfl, h⟩
  obtain ⟨kept, hrow⟩ := h.of_get? hget
  obtain ⟨hfailed, hexpected⟩ := failed_of_checks hhash htarget
  have hresumable : PostgresTracerJobs.isResumable _ (rowOf record (m.leases.get? input.key)) =
      true := isResumable_of_checks hhash htarget
    (hmeets record hget hfailed hexpected (Bool.eq_true_of_not_eq_false hresumes))
  -- a failed job has no lease to give up
  have hlease : m.leases.get? input.key = none := by
    by_contra hsome
    have hopen := kept.open_ (Option.isSome_iff_ne_none.mpr hsome)
    rw [hfailed] at hopen
    exact nomatch hopen
  have hkept : ∀ {resumed : TracerJobInput},
      LeaseFits (MemoryTracerJobs.requeued setup record resumed now) none :=
    ⟨nofun, rfl, kept.valid⟩
  have hsequence : ∀ {resumed : TracerJobInput},
      failedResumeSequence (MemoryTracerJobs.requeued setup record resumed now) =
        failedResumeSequence record := rfl
  have herased : ∀ {r : TracerJobRecord},
      ((m.setRecord input.key r).dropLease input.key).leases.get? input.key = none :=
    OrderedMap.get?_erase.trans (if_pos rfl)
  have hothers : ∀ {r : TracerJobRecord} k, k ≠ input.key →
      ((m.setRecord input.key r).dropLease input.key).leases.get? k = m.leases.get? k :=
    fun k hk => OrderedMap.get?_erase.trans (if_neg hk)
  have hback : ∀ {r : TracerJobRecord}, Mirrors
      (((m.setRecord input.key r).dropLease input.key).setRecord input.key record) p := by
    intro r k
    rw [show (((m.setRecord input.key r).dropLease input.key).setRecord input.key record).records =
      (m.records.set input.key r).set input.key record from rfl]
    by_cases hk : k = input.key
    · subst hk
      have hrow' := hrow
      rw [hlease] at hrow'
      have hnone : (((m.setRecord input.key r).dropLease input.key).setRecord input.key
        record).leases.get? input.key = none := herased
      rw [OrderedMap.get?_set_self, hrow', hnone]
      exact .present (hlease ▸ kept)
    · rw [OrderedMap.get?_set_ne hk, OrderedMap.get?_set_ne hk]
      exact hothers (r := r) k hk ▸ h k
  simp only [both_iff, wp_bind, wp_modify, wp_pure, wp_updateRow_some hrow, if_pos hresumable,
    PostgresTracerJobs.returned, Option.elim, check_pure, rowOf_requeued, mapRow_rowOf hkept,
    MemoryTracerJobs.wp_restoring, hsequence]
  cases failedResumeSequence record with
  | error e =>
    simp only [check_error, wp_throw]
    exact ⟨rfl, hback⟩
  | ok sequence =>
    cases queueTakes refusal with
    | error e =>
      simp only [check_ok, check_error, wp_pure, wp_throw]
      exact ⟨rfl, hback⟩
    | ok =>
      simp only [check_ok, wp_pure]
      exact ⟨rfl, h.write rfl hothers (fun _ hk => OrderedMap.get?_set_ne hk) (herased ▸ hkept)
        (OrderedMap.get?_set_self.trans (herased ▸ rfl))⟩

/-! ## Runs -/

namespace TracerRepositories

/-- **The call is one on which the two agree**: it is not a new job the queue refuses, not a
result of a job that is not there, and not the resume of a failed job whose provider task is the
empty text. -/
def Meets (setup : TracerSetup) (s : TracerRepositories) : TracerCall → Prop
  | .submit input _ refusal => s.memory.get? input.key = none →
      validateDurableJobInput input = .ok () → refusal = none
  | .resumeFailed input _ _ => ∀ record, s.memory.get? input.key = some record →
      record.status = .failed → record.payloadHash = input.expectedPayloadHash →
        setup.resumes = true → record.providerTaskRef ≠ some ""
  | .record key _ _ _ => (s.memory.get? key).isSome = true
  | _ => True

theorem both_answer {α : Type} {f : α → TracerAnswer} {x : MemoryTracerJobs.Op α}
    {y : PostgresTracerJobs.Op α} (h : Both x m y p Same SameCode) :
    Both (f <$> x) m (f <$> y) p Same SameCode :=
  both_map (h.mono (fun _ _ _ _ hsame => ⟨congrArg f hsame.1, hsame.2⟩) fun _ _ _ _ hcode => hcode)

/-- Both answer alike, mirrored. -/
theorem both_perform {call : TracerCall} (h : Mirrors m p) (hmeets : Meets setup ⟨m, p⟩ call) :
    Both (MemoryTracerJobs.perform setup call) m (PostgresTracerJobs.perform setup call) p
      Same SameCode := by
  cases call with
  | submit input now refusal => exact both_answer (both_submit h hmeets)
  | resumeFailed input now refusal => exact both_answer (both_resumeFailed h hmeets)
  | requestCancel key now => exact both_answer (both_requestCancel h key now)
  | reserve key now uuid => exact both_answer (both_reserve h key now uuid)
  | record key leaseToken result now => exact both_answer (both_update h leaseToken result now hmeets)
  | recordCancelledReconciliation key providerTaskRef reconciliationKey output now =>
    exact both_answer
      (both_recordCancelledReconciliation h key providerTaskRef reconciliationKey output now)

theorem agree_step {s : TracerRepositories} {call : TracerCall}
    (h : Mirrors s.memory s.postgres) (hmeets : Meets setup s call) :
    Mirrors (s.step setup call).memory (s.step setup call).postgres ∧ Agree setup s call := by
  obtain ⟨a, b, ha, hb, hsame, hafter⟩ | ⟨e, d, he, hd, hcode, hafter⟩ :=
    (both_perform h hmeets).outcome
  · refine ⟨hafter, ?_, fun key => congrArg _ (hafter.get? key).symm⟩
    rw [ha, hb, hsame]
  · refine ⟨hafter, ?_, fun key => congrArg _ (hafter.get? key).symm⟩
    rw [he, hd]
    exact congrArg TracerEnding.failed hcode

/-- **The two repositories agree**, through every run of calls on which they agree. -/
theorem repositoriesAgree (setup : TracerSetup) (calls : List TracerCall)
    (hmeets : Admits (step setup) (Meets setup) calls empty) :
    Admits (step setup) (Agree setup) calls empty := by
  have hempty : Mirrors empty.memory empty.postgres := fun _ => .absent
  exact hmeets.beside (fun s => Mirrors s.memory s.postgres) (fun _ _ => agree_step) hempty

/-! ## A job in both -/

/-- A lease of one second, and texts for fingerprints. -/
def oneSecond : TracerSetup where
  fingerprintValue := Json.stringify
  leaseDurationMs := 1000
  positive := by decide
  resumes := true

def speechKey : TracerKey := ⟨"w1", "j1"⟩

def speechJob : TracerJobInput where
  workspaceId := "w1"
  jobId := "j1"
  kind := "audio"
  payload := .empty

/-- The job, submitted, leased and failed with the provider task `taskRef`. -/
def failedJob (taskRef : Option String) : List TracerCall :=
  [.submit speechJob 0 none, .reserve speechKey 1 "lease-1",
    .record speechKey "lease-1" (.fail "rejected" taskRef) 2]

theorem repositoriesAgree_failed :
    Admits (step oneSecond) (Agree oneSecond) (failedJob none) empty :=
  repositoriesAgree oneSecond (failedJob none) ⟨fun _ _ => rfl, trivial, rfl, trivial⟩

def speechResume : ResumeFailedTracerJobInput where
  workspaceId := "w1"
  jobId := "j1"
  expectedPayloadHash := payloadHash oneSecond speechJob
  payload := .empty

/-- The three calls that come out differently. -/
theorem not_repositoriesAgree :
    ¬ Admits (step oneSecond) (Agree oneSecond) [.submit speechJob 0 (some "down")] empty ∧
    ¬ Admits (step oneSecond) (Agree oneSecond)
      [.record speechKey "lease-1" (.recordRejected "busy") 0] empty ∧
    ¬ Admits (step oneSecond) (Agree oneSecond)
      (failedJob (some "") ++ [.resumeFailed speechResume 3 none]) empty := by
  refine ⟨fun h => ?_, fun h => ?_, fun h => ?_⟩
  · have hfacts := congrArg Option.isSome (h.1.facts speechKey)
    exact absurd hfacts (by decide +kernel)
  · exact absurd h.1.ending (by decide +kernel)
  · exact absurd h.2.2.2.1.ending (by decide +kernel)

end TracerRepositories

end MeiyeAgent
