import MeiyeAgent.Foundation.Schemas
import MeiyeAgent.Machinery.OrderedMap
import MeiyeAgent.Machinery.SideBySide

/-!
# Operations/SelfReportAsks — a merchant is asked once about a work

Asks are events of the audit log, the latest of an ask id being its row.  The rule is one ask a
work, and a call names an ask by its id: `asksHold` is the rule, in every run whose calls name the
asks of their own works.
-/

namespace MeiyeAgent

open Effect

/-! ## The log -/

inductive SelfReportAskStatus
  | asked | answered | ignored
  deriving DecidableEq

structure SelfReportAskEvent where
  askId : String
  workId : String
  contentPackageId : String
  contentPackageRevision : Int
  askedAt : String
  status : SelfReportAskStatus
  answeredAt : Option String := none
  ignoredAt : Option String := none
  deriving DecidableEq

/-- An audit event, with the ask it is about where its details have one. -/
structure OperationsAuditEvent where
  id : String
  workspaceId : String
  actorId : String
  correlationId : String
  action : String
  entityType : String
  entityId : String
  event : Option SelfReportAskEvent
  createdAt : String
  deriving DecidableEq

structure OperationContext where
  workspaceId : String
  userId : String
  correlationId : String

def AUDIT_SELF_REPORT : String := "publish_handoff.self_report_ask"

def selfReportAuditEvent (context : OperationContext) (id createdAt : String)
    (event : SelfReportAskEvent) : OperationsAuditEvent where
  id
  workspaceId := context.workspaceId
  actorId := context.userId
  correlationId := context.correlationId
  action := AUDIT_SELF_REPORT
  entityType := "self_report_ask"
  entityId := event.askId
  event := some event
  createdAt

/-- The ask an audit event is about, where it has an id. -/
def OperationsAuditEvent.ask (audit : OperationsAuditEvent) : Option SelfReportAskEvent :=
  if audit.action = AUDIT_SELF_REPORT then audit.event.filter (·.askId ≠ "") else none

/-- The asks of a log, first to last. -/
def askEvents (log : List OperationsAuditEvent) : List SelfReportAskEvent :=
  log.filterMap OperationsAuditEvent.ask

/-- The latest event of each ask. -/
def askRows (log : List OperationsAuditEvent) : OrderedMap String SelfReportAskEvent :=
  OrderedMap.empty.setAll ((askEvents log).map fun event => (event.askId, event))

/-- `appendAuditEvent`: an id that is there already is left alone. -/
def appendAuditEvent (log : List OperationsAuditEvent) (audit : OperationsAuditEvent) :
    List OperationsAuditEvent :=
  if log.any (·.id = audit.id) then log else log ++ [audit]

/-! ## The call -/

inductive SelfReportAction
  | mark_asked | mark_ignored | mark_answered
  deriving DecidableEq

structure RecordSelfReportAskCommand where
  workId : String
  contentPackageId : String
  contentPackageRevision : Int
  action : SelfReportAction
  askId : Option String := none

inductive PublishHandoffErrorCode
  | SELF_REPORT_ASK_CONFLICT | SELF_REPORT_ASK_NOT_FOUND
  deriving DecidableEq

structure PublishHandoffError where
  code : PublishHandoffErrorCode
  message : String
  deriving DecidableEq

/-- A call, with the text of its clock and the ids that are generated for it: of the ask, where none
is given, and of the audit event. -/
structure AskCall where
  context : OperationContext
  input : RecordSelfReportAskCommand
  now : String
  newAskId : String
  auditId : String

section Recording

variable (host : Host)

def projectSelfReportAskEvents (log : List OperationsAuditEvent) : List SelfReportAskEvent :=
  sortBy (fun a b => some (host.localeCompare a.askedAt b.askedAt)) (askRows log).values

/-- The ask of a call: the id that is given, or a new one. -/
def AskCall.askId (call : AskCall) : String := call.input.askId.getD call.newAskId

/-- The row a call begins. -/
def AskCall.row (call : AskCall) : SelfReportAskEvent where
  askId := call.askId
  workId := call.input.workId
  contentPackageId := call.input.contentPackageId
  contentPackageRevision := call.input.contentPackageRevision
  askedAt := call.now
  status := .asked

/-- The row a call is about. -/
def AskCall.target (call : AskCall) (events : List SelfReportAskEvent) :
    Option SelfReportAskEvent :=
  ((truthy call.input.askId).bind fun askId => events.find? (·.askId = askId)).or
    (events.reverse.find? (·.workId = call.input.workId))

/-- A row is appended to the log, and answered. -/
def AskCall.record (call : AskCall) (row : SelfReportAskEvent) :
    EStateM PublishHandoffError (List OperationsAuditEvent) SelfReportAskEvent := do
  modify (appendAuditEvent · (selfReportAuditEvent call.context call.auditId call.now row))
  return row

/-- `recordSelfReportAsk`, under the lock of its work. -/
def recordSelfReportAsk (call : AskCall) :
    EStateM PublishHandoffError (List OperationsAuditEvent) SelfReportAskEvent := do
  let events := projectSelfReportAskEvents host (← get)
  match call.input.action with
  | .mark_asked =>
    if events.any (·.workId = call.input.workId) then
      throw ⟨.SELF_REPORT_ASK_CONFLICT, "This Work was already asked (U2 maxAsksPerWork=1)."⟩
    else call.record call.row
  | .mark_ignored =>
    match call.target events with
    | none => throw ⟨.SELF_REPORT_ASK_NOT_FOUND, "No self-report ask found for this Work."⟩
    | some row =>
      if row.status ≠ .asked then return row
      else call.record { row with status := .ignored, ignoredAt := some call.now }
  | .mark_answered =>
    match call.target events with
    -- an answer can land without an ask before it
    | none => call.record { call.row with status := .answered, answeredAt := some call.now }
    | some row =>
      if row.status ≠ .asked then return row
      else call.record { row with status := .answered, answeredAt := some call.now }

/-! ## Runs -/

/-- The log, and the works a call has marked asked or answered. -/
structure Asks where
  log : List OperationsAuditEvent
  marked : List String := []

/-- What a call that is answered has marked. -/
def AskCall.marks (call : AskCall) : List String :=
  if call.input.action = .mark_ignored then [] else [call.input.workId]

def Asks.next (s : Asks) (call : AskCall) : Asks where
  log := final (recordSelfReportAsk host call) s.log
  marked := (match result (recordSelfReportAsk host call) s.log with
    | .ok _ => call.marks
    | .error _ => []) ++ s.marked

/-- **What a call keeps to**, whatever it answers. -/
structure AskLaw (s : Asks) (call : AskCall) : Prop where
  /-- one ask a work -/
  single : ∀ a ∈ projectSelfReportAskEvents host (s.next host call).log,
    ∀ b ∈ projectSelfReportAskEvents host (s.next host call).log, a.workId = b.workId → a = b
  once : call.input.action = .mark_asked → call.input.workId ∈ s.marked →
    ∃ e, result (recordSelfReportAsk host call) s.log = .error e ∧
      e.code = .SELF_REPORT_ASK_CONFLICT
  /-- the asks of other works are left alone -/
  others : ∀ row, row.workId ≠ call.input.workId →
    (row ∈ projectSelfReportAskEvents host (s.next host call).log ↔
      row ∈ projectSelfReportAskEvents host s.log)
  settled : ∀ row ∈ projectSelfReportAskEvents host s.log, row.status ≠ .asked →
    row ∈ projectSelfReportAskEvents host (s.next host call).log

/-- **The condition on a call**: its ask id is there, no other work has it, and the id of its audit
event is new. -/
structure AskMet (s : Asks) (call : AskCall) : Prop where
  named : call.askId ≠ ""
  own : ∀ event ∈ askEvents s.log, event.askId = call.askId → event.workId = call.input.workId
  fresh : ∀ audit ∈ s.log, audit.id ≠ call.auditId

end Recording

/-! ## Rows -/

section Rows

variable {host : Host} {log : List OperationsAuditEvent} {call : AskCall}
  {row event old : SelfReportAskEvent}

theorem ask_named {audit : OperationsAuditEvent} (h : audit.ask = some event) :
    event.askId ≠ "" := by
  rw [OperationsAuditEvent.ask] at h
  split at h
  · exact of_decide_eq_true (Option.filter_eq_some_iff.mp h).2
  · exact nomatch h

/-- A row is an event, under its own id. -/
theorem of_askRows {id : String} (h : (askRows log).get? id = some row) :
    row ∈ askEvents log ∧ row.askId = id := by
  rcases OrderedMap.of_get?_setAll h with hmem | hget
  · obtain ⟨event, hevent, heq⟩ := List.mem_map.mp hmem
    obtain ⟨rfl, rfl⟩ := Prod.mk.inj heq
    exact ⟨hevent, rfl⟩
  · exact nomatch hget

/-- An event has a row. -/
theorem exists_row (h : event ∈ askEvents log) : ∃ row, (askRows log).get? event.askId = some row :=
  Option.isSome_iff_exists.mp
    (OrderedMap.isSome_get?_setAll (.inr ⟨event, List.mem_map.mpr ⟨event, h, rfl⟩⟩))

/-- **What is projected** is the row under its id. -/
theorem mem_project : row ∈ projectSelfReportAskEvents host log ↔
    (askRows log).get? row.askId = some row := by
  rw [projectSelfReportAskEvents, (sortBy_perm _ _).mem_iff, OrderedMap.mem_values]
  constructor
  · rintro ⟨id, hget⟩
    rw [(of_askRows hget).2]
    exact hget
  · exact fun hget => ⟨_, hget⟩

/-- **Ask ids and works go together.** -/
def Paired (log : List OperationsAuditEvent) : Prop :=
  ∀ a ∈ askEvents log, ∀ b ∈ askEvents log, a.askId = b.askId ↔ a.workId = b.workId

theorem Paired.single (h : Paired log) (hrow : row ∈ projectSelfReportAskEvents host log)
    (hold : old ∈ projectSelfReportAskEvents host log) (hwork : row.workId = old.workId) :
    row = old := by
  rw [mem_project] at hrow hold
  have hid := (h row (of_askRows hrow).1 old (of_askRows hold).1).mpr hwork
  rw [hid, hold] at hrow
  exact (Option.some.inj hrow).symm

/-- The work of an event has a row. -/
theorem Paired.row_of_event (h : Paired log) (hevent : event ∈ askEvents log) :
    ∃ row ∈ projectSelfReportAskEvents host log, row.workId = event.workId := by
  obtain ⟨row, hget⟩ := exists_row hevent
  obtain ⟨hrow, hid⟩ := of_askRows hget
  refine ⟨row, mem_project.mpr (hid ▸ hget), (h row hrow event hevent).mp hid⟩

/-! ### One more event -/

/-- **The event goes with what there is**: the ask has its id if and only if it is of its work. -/
def Joins (log : List OperationsAuditEvent) (event : SelfReportAskEvent) : Prop :=
  ∀ a ∈ askEvents log, a.askId = event.askId ↔ a.workId = event.workId

/-- The log with the event of a call. -/
def AskCall.appended (call : AskCall) (row : SelfReportAskEvent) (log : List OperationsAuditEvent) :
    List OperationsAuditEvent :=
  appendAuditEvent log (selfReportAuditEvent call.context call.auditId call.now row)

section Appending

variable (hfresh : ∀ audit ∈ log, audit.id ≠ call.auditId) (hnamed : row.askId ≠ "")

include hfresh hnamed

theorem askEvents_appended : askEvents (call.appended row log) = askEvents log ++ [row] := by
  have hnew : ¬ log.any (·.id = call.auditId) := by
    rw [List.any_eq_true]
    rintro ⟨audit, hmem, hid⟩
    exact hfresh audit hmem (of_decide_eq_true hid)
  have hask : (selfReportAuditEvent call.context call.auditId call.now row).ask = some row := by
    have hevent : (some row).filter (·.askId ≠ "") = some row := by
      rw [Option.filter_some, if_pos (decide_eq_true hnamed)]
    exact hevent
  have happended : call.appended row log =
      log ++ [selfReportAuditEvent call.context call.auditId call.now row] := if_neg hnew
  rw [happended, askEvents, List.filterMap_append, List.filterMap_cons_some hask]
  rfl

theorem askRows_appended : askRows (call.appended row log) = (askRows log).set row.askId row := by
  rw [askRows, askEvents_appended hfresh hnamed, List.map_append, OrderedMap.setAll,
    List.foldl_append]
  rfl

theorem mem_project_appended : old ∈ projectSelfReportAskEvents host (call.appended row log) ↔
    if old.askId = row.askId then old = row else old ∈ projectSelfReportAskEvents host log := by
  rw [mem_project, askRows_appended hfresh hnamed, OrderedMap.get?_set, mem_project]
  split
  · rw [Option.some.injEq, eq_comm]
  · rfl

theorem Paired.appended (h : Paired log) (hjoins : Joins log row) :
    Paired (call.appended row log) := by
  intro a ha b hb
  rw [askEvents_appended hfresh hnamed, List.mem_append, List.mem_singleton] at ha hb
  rcases ha with ha | rfl
  · rcases hb with hb | rfl
    · exact h a ha b hb
    · exact hjoins a ha
  · rcases hb with hb | rfl
    · rw [eq_comm, hjoins b hb, eq_comm]
    · exact iff_of_true rfl rfl

end Appending

end Rows

/-! ## What a call does -/

section Calls

variable {host : Host} {s : Asks} {call : AskCall}

/-- **How a call ends** that names an ask of its own work. -/
inductive AskOutcome (host : Host) (log : List OperationsAuditEvent) (call : AskCall) : Prop
  | refused (e : PublishHandoffError)
      (hcode : e.code = .SELF_REPORT_ASK_CONFLICT ∨ call.input.action = .mark_ignored)
      (h : recordSelfReportAsk host call log = .error e log)
  | kept (row : SelfReportAskEvent) (haction : call.input.action ≠ .mark_asked)
      (hmem : row ∈ projectSelfReportAskEvents host log) (hwork : row.workId = call.input.workId)
      (h : recordSelfReportAsk host call log = .ok row log)
  | begun (row : SelfReportAskEvent)
      (hnone : ∀ event ∈ projectSelfReportAskEvents host log, event.workId ≠ call.input.workId)
      (hid : row.askId = call.askId) (hwork : row.workId = call.input.workId)
      (h : recordSelfReportAsk host call log = .ok row (call.appended row log))
  | settled (old row : SelfReportAskEvent) (haction : call.input.action ≠ .mark_asked)
      (hmem : old ∈ projectSelfReportAskEvents host log) (hasked : old.status = .asked)
      (hid : row.askId = old.askId) (hsame : row.workId = old.workId)
      (hwork : row.workId = call.input.workId)
      (h : recordSelfReportAsk host call log = .ok row (call.appended row log))

theorem of_target (hmet : AskMet s call) {row : SelfReportAskEvent}
    (h : call.target (projectSelfReportAskEvents host s.log) = some row) :
    row ∈ projectSelfReportAskEvents host s.log ∧ row.workId = call.input.workId := by
  rcases Option.or_eq_some_iff.mp h with hnamed | ⟨-, hwork⟩
  · obtain ⟨askId, hgiven, hfind⟩ := Option.bind_eq_some_iff.mp hnamed
    have hmem := List.mem_of_find?_eq_some hfind
    refine ⟨hmem, hmet.own row (of_askRows (mem_project.mp hmem)).1 ?_⟩
    have hid : row.askId = askId := by simpa using List.find?_some hfind
    rw [AskCall.askId, (Option.filter_eq_some_iff.mp hgiven).1, hid, Option.getD_some]
  · exact ⟨List.mem_reverse.mp (List.mem_of_find?_eq_some hwork),
      by simpa using List.find?_some hwork⟩

/-- Without a target, the work has no ask. -/
theorem of_target_none (h : call.target (projectSelfReportAskEvents host s.log) = none) :
    ∀ event ∈ projectSelfReportAskEvents host s.log, event.workId ≠ call.input.workId := by
  intro event hmem hwork
  have hnone := (Option.or_eq_none_iff.mp h).2
  exact List.find?_eq_none.mp hnone event (List.mem_reverse.mpr hmem) (decide_eq_true hwork)

theorem recordSelfReportAsk_cases (hmet : AskMet s call) : AskOutcome host s.log call := by
  obtain ⟨outcome, houtcome⟩ : ∃ outcome, recordSelfReportAsk host call s.log = outcome := ⟨_, rfl⟩
  have hcall := houtcome
  rw [recordSelfReportAsk, get_bind] at hcall
  cases haction : call.input.action with
  | mark_asked =>
    simp only [haction] at hcall
    split at hcall
    · exact .refused _ (.inl rfl) (houtcome.trans hcall.symm)
    · next hnone =>
      refine .begun call.row (fun event hmem hwork => hnone ?_) rfl rfl (houtcome.trans hcall.symm)
      exact List.any_eq_true.mpr ⟨event, hmem, decide_eq_true hwork⟩
  | mark_ignored =>
    cases htarget : call.target (projectSelfReportAskEvents host s.log) with
    | none =>
      simp only [haction, htarget] at hcall
      exact .refused _ (.inr haction) (houtcome.trans hcall.symm)
    | some old =>
      obtain ⟨hmem, hwork⟩ := of_target hmet htarget
      simp only [haction, htarget] at hcall
      split at hcall
      · exact .kept old (by rw [haction]; exact nofun) hmem hwork (houtcome.trans hcall.symm)
      · next hasked =>
        exact .settled old { old with status := .ignored, ignoredAt := some call.now }
          (by rw [haction]; exact nofun) hmem (not_not.mp hasked) rfl rfl hwork
          (houtcome.trans hcall.symm)
  | mark_answered =>
    cases htarget : call.target (projectSelfReportAskEvents host s.log) with
    | none =>
      simp only [haction, htarget] at hcall
      exact .begun _ (of_target_none htarget) rfl rfl (houtcome.trans hcall.symm)
    | some old =>
      obtain ⟨hmem, hwork⟩ := of_target hmet htarget
      simp only [haction, htarget] at hcall
      split at hcall
      · exact .kept old (by rw [haction]; exact nofun) hmem hwork (houtcome.trans hcall.symm)
      · next hasked =>
        exact .settled old { old with status := .answered, answeredAt := some call.now }
          (by rw [haction]; exact nofun) hmem (not_not.mp hasked) rfl rfl hwork
          (houtcome.trans hcall.symm)

/-- **The invariant**: ids and works go together, and what has been marked is there. -/
structure Asks.Invariant (s : Asks) : Prop where
  paired : Paired s.log
  marked : ∀ workId ∈ s.marked, ∃ event ∈ askEvents s.log, event.workId = workId

/-- The state a call leaves that answers. -/
theorem next_of_ok {row : SelfReportAskEvent} {log : List OperationsAuditEvent}
    (h : recordSelfReportAsk host call s.log = .ok row log) :
    s.next host call = ⟨log, call.marks ++ s.marked⟩ := by
  rw [Asks.next, final, result, h]

theorem next_of_error {e : PublishHandoffError}
    (h : recordSelfReportAsk host call s.log = .error e s.log) : s.next host call = s := by
  rw [Asks.next, final, result, h]
  rfl

/-- A log that is left alone keeps to the law. -/
theorem askLaw_of_same (h : s.Invariant) (hlog : (s.next host call).log = s.log)
    (honce : call.input.action = .mark_asked → call.input.workId ∈ s.marked →
      ∃ e, result (recordSelfReportAsk host call) s.log = .error e ∧
        e.code = .SELF_REPORT_ASK_CONFLICT) : AskLaw host s call where
  single a ha b hb hwork := by
    rw [hlog] at ha hb
    exact h.paired.single ha hb hwork
  once := honce
  others row _ := by rw [hlog]
  settled row hmem _ := by rwa [hlog]

/-- **An event of the work of the call** is appended. -/
theorem askLaw_of_appended (h : s.Invariant) (hmet : AskMet s call) {row : SelfReportAskEvent}
    (hnamed : row.askId ≠ "") (hwork : row.workId = call.input.workId) (hjoins : Joins s.log row)
    (hcall : recordSelfReportAsk host call s.log = .ok row (call.appended row s.log))
    (hopen : ∀ old ∈ projectSelfReportAskEvents host s.log, old.workId = row.workId →
      old.status = .asked)
    (honce : call.input.action = .mark_asked → call.input.workId ∉ s.marked) :
    (s.next host call).Invariant ∧ AskLaw host s call := by
  have hnext := next_of_ok hcall
  have hpaired : Paired (s.next host call).log := by
    rw [hnext]
    exact h.paired.appended hmet.fresh hnamed hjoins
  have hproject : ∀ old, old ∈ projectSelfReportAskEvents host (s.next host call).log ↔
      if old.askId = row.askId then old = row
      else old ∈ projectSelfReportAskEvents host s.log := by
    intro old
    rw [hnext]
    exact mem_project_appended hmet.fresh hnamed
  have hevents : askEvents (s.next host call).log = askEvents s.log ++ [row] := by
    rw [hnext]
    exact askEvents_appended hmet.fresh hnamed
  have hold : ∀ old ∈ projectSelfReportAskEvents host s.log, old.askId = row.askId →
      old.workId = row.workId :=
    fun old hmem => (hjoins old (of_askRows (mem_project.mp hmem)).1).mp
  refine ⟨⟨hpaired, fun workId hmarked => ?_⟩, ⟨fun a ha b hb => hpaired.single ha hb,
    fun haction hmarked => absurd hmarked (honce haction), fun other hother => ?_,
    fun old hmem hsettled => ?_⟩⟩
  · rw [hevents]
    rw [hnext] at hmarked
    rcases List.mem_append.mp hmarked with hmarks | hmarked
    · rw [AskCall.marks] at hmarks
      split at hmarks
      · exact absurd hmarks List.not_mem_nil
      · rw [List.mem_singleton.mp hmarks]
        exact ⟨row, List.mem_append_right _ List.mem_cons_self, hwork⟩
    · obtain ⟨event, hevent, hsame⟩ := h.marked workId hmarked
      exact ⟨event, List.mem_append_left _ hevent, hsame⟩
  · rw [hproject]
    split
    · next hid =>
      refine iff_of_false ?_ fun hmem => hother ((hold other hmem hid).trans hwork)
      rintro rfl
      exact hother hwork
    · rfl
  · rw [hproject, if_neg]
    · exact hmem
    · exact fun hid => hsettled (hopen old hmem (hold old hmem hid))

/-- **What one call keeps**: the invariant, and with it the law. -/
theorem askLaw (h : s.Invariant) (hmet : AskMet s call) :
    (s.next host call).Invariant ∧ AskLaw host s call := by
  have hmarked : call.input.workId ∈ s.marked →
      ∃ event ∈ projectSelfReportAskEvents host s.log, event.workId = call.input.workId := by
    intro hmem
    obtain ⟨event, hevent, hwork⟩ := h.marked _ hmem
    obtain ⟨row, hrow, hsame⟩ := @Paired.row_of_event host _ _ h.paired hevent
    exact ⟨row, hrow, hsame.trans hwork⟩
  rcases @recordSelfReportAsk_cases host _ _ hmet with ⟨e, hcode, hcall⟩ |
    ⟨row, haction, hmem, hwork, hcall⟩ | ⟨row, hnone, hid, hwork, hcall⟩ |
    ⟨old, row, haction, hmem, hasked, hid, hsame, hwork, hcall⟩
  · have hnext := next_of_error hcall
    refine ⟨by rwa [hnext], askLaw_of_same h (by rw [hnext]) fun haction _ => ⟨e, ?_, ?_⟩⟩
    · rw [result, hcall]
    · exact hcode.resolve_right fun hignored => by cases haction.symm.trans hignored
  · have hnext := next_of_ok hcall
    refine ⟨⟨by rw [hnext]; exact h.paired, fun workId hmem' => ?_⟩,
      askLaw_of_same h (by rw [hnext]) fun hasked => absurd hasked haction⟩
    rw [hnext] at hmem' ⊢
    rcases List.mem_append.mp hmem' with hmarks | hmem'
    · rw [AskCall.marks] at hmarks
      split at hmarks
      · exact absurd hmarks List.not_mem_nil
      · rw [List.mem_singleton.mp hmarks]
        exact ⟨row, (of_askRows (mem_project.mp hmem)).1, hwork⟩
    · exact h.marked workId hmem'
  · have hwithout : ∀ event ∈ askEvents s.log, event.workId ≠ call.input.workId := by
      intro event hevent hsame
      obtain ⟨row, hrow, hrow'⟩ := @Paired.row_of_event host _ _ h.paired hevent
      exact hnone row hrow (hrow'.trans hsame)
    refine askLaw_of_appended h hmet (hid ▸ hmet.named) hwork (fun event hevent => ?_) hcall
      (fun old hmem hsame => absurd (hsame.trans hwork) (hnone old hmem)) fun _ hmem => ?_
    · refine iff_of_false (fun hid' => ?_) fun hsame => hwithout event hevent (hsame.trans hwork)
      exact hwithout event hevent (hmet.own event hevent (hid'.trans hid))
    · obtain ⟨event, hevent, hsame⟩ := hmarked hmem
      exact hnone event hevent hsame
  · have hevent := (of_askRows (mem_project.mp hmem)).1
    have hnamed : old.askId ≠ "" := by
      obtain ⟨audit, -, hask⟩ := List.mem_filterMap.mp hevent
      exact ask_named hask
    refine askLaw_of_appended h hmet (hid ▸ hnamed) hwork (fun event hmem' => ?_) hcall
      (fun other hother hsame' => ?_) fun hasked => absurd hasked haction
    · rw [hid, hsame]
      exact h.paired event hmem' old hevent
    · rw [h.paired.single hother hmem (hsame'.trans hsame)]
      exact hasked

end Calls

/-! ## Runs -/

/-- **Asks hold**: in a run whose calls name the asks of their own works, from a log without asks,
every call keeps to the law. -/
theorem asksHold (host : Host) (log : List OperationsAuditEvent) (hempty : askEvents log = [])
    (calls : List AskCall) (hmet : Admits (Asks.next host) AskMet calls ⟨log, []⟩) :
    Admits (Asks.next host) (AskLaw host) calls ⟨log, []⟩ :=
  Admits.beside Asks.Invariant (fun _ _ => askLaw)
    ⟨fun a ha => absurd ha (by rw [hempty]; exact List.not_mem_nil),
      fun _ hmem => absurd hmem List.not_mem_nil⟩ hmet

def merchant : OperationContext := ⟨"workspace", "merchant", "correlation"⟩

/-- A work is asked about, is not asked about again, and the merchant answers. -/
def askedThenAnswered : List AskCall :=
  [⟨merchant, ⟨"w", "package", 1, .mark_asked, none⟩, "1", "a", "e1"⟩,
    ⟨merchant, ⟨"w", "package", 1, .mark_asked, none⟩, "2", "b", "e2"⟩,
    ⟨merchant, ⟨"w", "package", 1, .mark_answered, some "a"⟩, "3", "c", "e3"⟩]

theorem asksHold_answered :
    Admits (Asks.next isoHost) (AskLaw isoHost) askedThenAnswered ⟨[], []⟩ := by
  refine asksHold isoHost [] rfl askedThenAnswered ⟨⟨by decide, nofun, nofun⟩,
    ⟨by decide, by decide +kernel, by decide +kernel⟩,
    ⟨by decide, by decide +kernel, by decide +kernel⟩, trivial⟩

/-- A second work is answered for under the id of the first one's ask. -/
def answeredForAnother : List AskCall :=
  [⟨merchant, ⟨"w", "package", 1, .mark_asked, some "a"⟩, "1", "b", "e1"⟩,
    ⟨merchant, ⟨"v", "package", 1, .mark_answered, some "a"⟩, "2", "c", "e2"⟩]

/-- **An answer for one work answers the ask of another.** -/
theorem not_asksHold :
    ¬ Admits (Asks.next isoHost) (AskLaw isoHost) answeredForAnother ⟨[], []⟩ := by
  intro h
  have hrow := (h.2.1.others ⟨"a", "w", "package", 1, "1", .asked, none, none⟩ (by decide)).mpr
    (by decide +kernel)
  exact absurd hrow (by decide +kernel)

end MeiyeAgent
