import MeiyeAgent.Foundation.Schemas
import MeiyeAgent.Machinery.OrderedMap

/-!
# SupplyRegistry/HealthOverlay — which targets new tasks may be sent to

A record says what state a target is in, until when, and two counters beside it say how many
failures led there.  `verdict` is the transition; `windowElapsed` is the one place the clock is
compared with a record.  `Date.parse` is a parameter: a record may be upserted with any text.
-/

namespace MeiyeAgent

open Effect

inductive HealthOverlayState
  | healthy
  | degraded
  | cooldown
  | circuit_open
  | unavailable
  deriving DecidableEq

/-- The states no request is routed to. -/
def isHealthOverlayBlocking (state : HealthOverlayState) : Bool :=
  state = .cooldown || state = .circuit_open || state = .unavailable

inductive HealthTargetKind
  | deployment
  | execution_channel
  | credential_account
  | provider_profile
  deriving DecidableEq

def HealthTargetKind.text : HealthTargetKind → String
  | .deployment => "deployment"
  | .execution_channel => "execution_channel"
  | .credential_account => "credential_account"
  | .provider_profile => "provider_profile"

/-- What is shown of the health of a target. -/
structure HealthOverlayRecord where
  targetKind : HealthTargetKind
  targetId : String
  state : HealthOverlayState
  reason : String
  source : String
  startedAt : String
  endsAt : Option String := none
  auditRef : Option String := none
  deriving DecidableEq

inductive HealthFailureFactKind
  | success
  | rate_limited
  | server_error
  | connection_error
  | hard_failure
  | accepted_failure
  | acceptance_unknown
  | probe_unavailable
  | manual_degraded
  | manual_unavailable
  | manual_clear
  deriving DecidableEq

/-- A fact reported of a target. -/
structure HealthFailureFact where
  targetKind : HealthTargetKind
  targetId : String
  kind : HealthFailureFactKind
  reason : String
  source : String
  auditRef : Option String := none
  observedAt : Option String := none
  deriving DecidableEq

/-- The failures in a row, by kind. -/
structure HealthOverlayCounters where
  consecutiveFails : Nat := 0
  consecutive5xx : Nat := 0
  deriving DecidableEq

structure StoredHealthOverlay where
  record : HealthOverlayRecord
  counters : HealthOverlayCounters
  deriving DecidableEq

/-- The limits a caller may set; a port sets none. -/
structure HealthLimits where
  allowedFails : Nat := 3
  cooldownTimeSeconds : Int := 5
  consecutive5xx : Nat := 5
  baseEjectionTimeSeconds : Int := 30

def healthOverlayTargetKey (targetKind : HealthTargetKind) (targetId : String) : String :=
  targetKind.text ++ ":" ++ targetId

/-- No kind is the start of another, so a key is read back. -/
theorem healthOverlayTargetKey_inj {kind kind' : HealthTargetKind} {id id' : String} :
    healthOverlayTargetKey kind id = healthOverlayTargetKey kind' id' ↔
      kind = kind' ∧ id = id' := by
  refine ⟨fun h => ?_, fun ⟨hkind, hid⟩ => hkind ▸ hid ▸ rfl⟩
  have hlist : (kind.text ++ ":" ++ id).toList = (kind'.text ++ ":" ++ id').toList :=
    congrArg String.toList h
  rw [String.toList_append, String.toList_append, String.toList_append, String.toList_append]
    at hlist
  have hkind : kind = kind' := by
    -- the kinds differ in their first letter
    have hhead := congrArg List.head? hlist
    cases kind <;> cases kind' <;> first | rfl | simp [HealthTargetKind.text] at hhead
  subst hkind
  exact ⟨rfl, String.toList_inj.mp (List.append_cancel_left hlist)⟩

/-! ## Windows -/

/-- An instant that has no text. -/
structure RangeError
  deriving DecidableEq

/-- `new Date(ms).toISOString()`. -/
def toIso (ms : Int) : Except RangeError String :=
  if (timeClip ms).isSome then pure (isoText ms) else throw ⟨⟩

section Parse

variable (parse : String → Option Int)

/-- The instant a block ends, where it ends. -/
def HealthOverlayRecord.windowEnd (record : HealthOverlayRecord) : Option Int :=
  if record.state = .cooldown ∨ record.state = .circuit_open then
    (truthy record.endsAt).bind parse
  else none

/-- A cooldown or an open circuit that is over. -/
def windowElapsed (record : HealthOverlayRecord) (nowMs : Int) : Bool :=
  (record.windowEnd parse).any (· ≤ nowMs)

/-- The record as it is read: healthy again once its window has passed. -/
def resolveHealthOverlayRecord (record : HealthOverlayRecord) (nowMs : Int) :
    Except RangeError HealthOverlayRecord :=
  if windowElapsed parse record nowMs then do
    return { record with
      state := .healthy
      reason := "overlay_window_elapsed"
      startedAt := ← toIso nowMs
      endsAt := none
      auditRef := truthy record.auditRef }
  else pure record

/-! ## The transition -/

/-- What a fact makes of a target: its state, how long for, and the counters. -/
structure HealthVerdict where
  state : HealthOverlayState
  windowSeconds : Option Int := none
  counters : HealthOverlayCounters
  deriving DecidableEq

/-- What a fact makes of the counters and the state. -/
def HealthFailureFactKind.verdict (limits : HealthLimits) (counters : HealthOverlayCounters) :
    HealthFailureFactKind → HealthVerdict
  | .success | .manual_clear => { state := .healthy, counters := {} }
  | .manual_degraded => { state := .degraded, counters }
  | .manual_unavailable | .probe_unavailable => { state := .unavailable, counters }
  | .rate_limited =>
    { state := .cooldown, windowSeconds := some limits.cooldownTimeSeconds
      counters := ⟨counters.consecutiveFails + 1, 0⟩ }
  | .server_error | .connection_error =>
    if limits.consecutive5xx ≤ counters.consecutive5xx + 1 then
      { state := .circuit_open, windowSeconds := some limits.baseEjectionTimeSeconds
        counters := ⟨counters.consecutiveFails + 1, 0⟩ }
    else if limits.allowedFails ≤ counters.consecutiveFails + 1 then
      { state := .cooldown, windowSeconds := some limits.cooldownTimeSeconds
        counters := ⟨0, counters.consecutive5xx + 1⟩ }
    else
      { state := .degraded
        counters := ⟨counters.consecutiveFails + 1, counters.consecutive5xx + 1⟩ }
  | .hard_failure | .accepted_failure | .acceptance_unknown =>
    { state := .cooldown, windowSeconds := some limits.cooldownTimeSeconds
      counters := ⟨counters.consecutiveFails + 1, counters.consecutive5xx⟩ }

/-- The counters a fact starts from; the previous record is resolved, and only that. -/
def baseCounters (previous : Option StoredHealthOverlay) (nowMs : Int) :
    Except RangeError HealthOverlayCounters :=
  match previous with
  | none => pure {}
  | some previous => do
    let _ ← resolveHealthOverlayRecord parse previous.record nowMs
    return previous.counters

def HealthFailureFact.observed (fact : HealthFailureFact) (nowMs : Int) :
    Except RangeError String :=
  match fact.observedAt with
  | some text => pure text
  | none => toIso nowMs

/-- The row after a fact. -/
def applyHealthFailureFact (previous : Option StoredHealthOverlay) (fact : HealthFailureFact)
    (nowMs : Int) (limits : HealthLimits) : Except RangeError StoredHealthOverlay := do
  let nowIso ← fact.observed nowMs
  let counters ← baseCounters parse previous nowMs
  let verdict := fact.kind.verdict limits counters
  let endsAt ← verdict.windowSeconds.mapM fun seconds => toIso (nowMs + seconds * 1000)
  return {
    record := {
      targetKind := fact.targetKind
      targetId := fact.targetId
      state := verdict.state
      reason := fact.reason
      source := fact.source
      startedAt := nowIso
      endsAt
      auditRef := truthy fact.auditRef }
    counters := verdict.counters }

/-! ## The port -/

abbrev HealthStore := OrderedMap String StoredHealthOverlay

namespace MemoryHealthOverlayPort

variable (nowMs : Int)

/-- A record whose window is over is written back, its counters reset. -/
def get (targetKind : HealthTargetKind) (targetId : String) :
    EStateM RangeError HealthStore (Option HealthOverlayRecord) := do
  let store ← MonadState.get
  match store.get? (healthOverlayTargetKey targetKind targetId) with
  | none => return none
  | some stored =>
    let resolved ← check (resolveHealthOverlayRecord parse stored.record nowMs)
    if resolved.state ≠ stored.record.state then
      modify (·.set (healthOverlayTargetKey targetKind targetId)
        ⟨resolved, if resolved.state = .healthy then {} else stored.counters⟩)
    return some resolved

def list (targetKind : Option HealthTargetKind) :
    EStateM RangeError HealthStore (List HealthOverlayRecord) := do
  let store ← MonadState.get
  let kept := store.values.filter fun stored => targetKind.all (stored.record.targetKind = ·)
  check (kept.mapM fun stored => resolveHealthOverlayRecord parse stored.record nowMs)

/-- A record written by hand keeps the counters. -/
def upsert (record : HealthOverlayRecord) : EStateM RangeError HealthStore Unit := do
  let key := healthOverlayTargetKey record.targetKind record.targetId
  let store ← MonadState.get
  set (store.set key ⟨record, ((store.get? key).map (·.counters)).getD {}⟩)

def clear (targetKind : HealthTargetKind) (targetId : String) :
    EStateM RangeError HealthStore Unit :=
  modify (·.erase (healthOverlayTargetKey targetKind targetId))

def reportFact (fact : HealthFailureFact) : EStateM RangeError HealthStore HealthOverlayRecord := do
  let key := healthOverlayTargetKey fact.targetKind fact.targetId
  let store ← MonadState.get
  let next ← check (applyHealthFailureFact parse (store.get? key) fact nowMs {})
  set (store.set key next)
  return next.record

end MemoryHealthOverlayPort

/-! ## Runs -/

inductive HealthCall
  | get (targetKind : HealthTargetKind) (targetId : String)
  | list (targetKind : Option HealthTargetKind)
  | upsert (record : HealthOverlayRecord)
  | clear (targetKind : HealthTargetKind) (targetId : String)
  | reportFact (fact : HealthFailureFact)
  deriving DecidableEq

inductive HealthAnswer
  | found (record : Option HealthOverlayRecord)
  | listed (records : List HealthOverlayRecord)
  | written
  | reported (record : HealthOverlayRecord)
  deriving DecidableEq

def HealthCall.perform (nowMs : Int) : HealthCall → EStateM RangeError HealthStore HealthAnswer
  | .get kind id => .found <$> MemoryHealthOverlayPort.get parse nowMs kind id
  | .list kind => .listed <$> MemoryHealthOverlayPort.list parse nowMs kind
  | .upsert record => (fun _ => .written) <$> MemoryHealthOverlayPort.upsert record
  | .clear kind id => (fun _ => .written) <$> MemoryHealthOverlayPort.clear kind id
  | .reportFact fact => .reported <$> MemoryHealthOverlayPort.reportFact parse nowMs fact

/-- A call, and what the clock reads at it. -/
abbrev HealthStep := Int × HealthCall

def healthStep (s : HealthStore) (step : HealthStep) : HealthStore :=
  final (step.2.perform parse step.1) s

/-- What a call of the run answers. -/
def healthAnswer (s : HealthStore) (step : HealthStep) : Except RangeError HealthAnswer :=
  result (step.2.perform parse step.1) s

end Parse

end MeiyeAgent
