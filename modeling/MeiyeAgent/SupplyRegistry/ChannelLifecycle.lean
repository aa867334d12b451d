import Mathlib.Data.Finset.Card
import MeiyeAgent.Foundation.Instants
import MeiyeAgent.Machinery.Effect

/-!
# SupplyRegistry/ChannelLifecycle — channels taken out of service and drained

One channel, kept by two implementations.  In memory the state is the record itself, its count of
submissions in flight and the number of its revision written in it; in Postgres the count is that of
the rows of submissions and the revision is a column, and both are put over the record read.
-/

namespace MeiyeAgent

open Effect

/-- What a channel does with submissions. -/
inductive ChannelLifecycleMode
  | accepting
  | isolated
  | draining
  deriving DecidableEq

inductive MediaProviderDrainMode
  | accepting
  | draining
  deriving DecidableEq

/-- A channel, at its revision. -/
structure ChannelLifecycleState where
  channelId : String
  lifecycleRevision : String
  mode : ChannelLifecycleMode
  reason : String
  startedAt : String
  drainMode : MediaProviderDrainMode
  inFlightCount : Int
  deriving DecidableEq

inductive ChannelAdmissionIntent
  | new_submit
  | in_flight
  deriving DecidableEq

inductive ChannelAdmissionErrorCode
  | channel_isolated
  | channel_draining
  deriving DecidableEq

/-- Whether a submission is let in. -/
structure ChannelAdmissionDecision where
  channelId : String
  intent : ChannelAdmissionIntent
  admitted : Bool
  mode : ChannelLifecycleMode
  errorCode : Option ChannelAdmissionErrorCode := none
  message : Option String := none
  deriving DecidableEq

structure ChannelSubmissionAdmission extends ChannelAdmissionDecision where
  inFlightId : String
  inFlightCount : Int
  lifecycleRevision : String
  newlyAcquired : Bool
  deriving DecidableEq

inductive HotAssemblyErrorCode
  | CAPABILITY_REVISION_NOT_FOUND
  | DEPLOYMENT_OUTSIDE_CAPABILITY
  | ENTRY_NOT_FOUND
  | CHANNEL_NOT_ACCEPTING
  | LIFECYCLE_REVISION_CONFLICT
  | CREDENTIAL_REQUIRED
  | ADAPTER_BINDING_MISSING
  | INVALID_REVISION
  deriving DecidableEq

structure HotAssemblyError where
  code : HotAssemblyErrorCode
  message : String
  deriving DecidableEq

/-! ## Revisions -/

def channelLifecycleRevisionId (channelId : String) (revision : Nat) : String :=
  channelId ++ ":lifecycle:r" ++ Nat.repr revision

/-- `/:lifecycle:r(\d+)$/`: the digits the text ends in, after the mark. -/
def lifecycleNumber (text : String) : Option Nat :=
  let backwards := text.toList.reverse
  let digits := (backwards.takeWhile Char.isDigit).reverse
  if digits ≠ [] ∧ ":lifecycle:r".toList.reverse.isPrefixOf (backwards.dropWhile Char.isDigit) then
    some (Nat.ofDigitChars 10 digits 0)
  else none

def nextChannelLifecycleRevisionId (state : ChannelLifecycleState) : String :=
  channelLifecycleRevisionId state.channelId
    (match lifecycleNumber state.lifecycleRevision with
      | some current => current + 1
      | none => 1)

def initialChannelLifecycle (channelId now : String) : ChannelLifecycleState where
  channelId := channelId
  lifecycleRevision := channelLifecycleRevisionId channelId 0
  mode := .accepting
  reason := "initial"
  startedAt := now
  drainMode := .accepting
  inFlightCount := 0

/-- A channel nothing is known of. -/
def absentChannel (channelId : String) : ChannelLifecycleState :=
  initialChannelLifecycle channelId (isoText 0)

/-! ## Admission and transition -/

/-- A new submission needs a channel that accepts. -/
def decideChannelAdmission (state : ChannelLifecycleState) (intent : ChannelAdmissionIntent) :
    ChannelAdmissionDecision :=
  if state.mode = .accepting then
    { channelId := state.channelId, intent, admitted := true, mode := state.mode }
  else if intent = .in_flight then
    { channelId := state.channelId, intent, admitted := true, mode := state.mode }
  else if state.mode = .isolated then
    { channelId := state.channelId, intent, admitted := false, mode := state.mode
      errorCode := some .channel_isolated
      message := some ("Channel " ++ state.channelId ++
        " is isolated; new submissions are rejected without process restart.") }
  else
    { channelId := state.channelId, intent, admitted := false, mode := state.mode
      errorCode := some .channel_draining
      message := some ("Channel " ++ state.channelId ++
        " is draining; new submissions are rejected while in-flight tasks continue.") }

/-- What can be asked of a channel. -/
inductive ChannelCommand
  | isolate (reason : String)
  | start_drain (reason : String)
  | complete_drain (reason : String)
  | restore (reason : String)
  | set_in_flight (count : Int)
  deriving DecidableEq

structure TransitionOptions where
  now : Option String := none
  inFlightCount : Option Int := none
  lifecycleRevision : Option String := none

/-- `clock` is the text of the instant of the call. -/
def transitionChannelLifecycle (previous : Option ChannelLifecycleState) (command : ChannelCommand)
    (channelId clock : String) (options : TransitionOptions) :
    Except HotAssemblyError ChannelLifecycleState :=
  let now := options.now.getD clock
  let base := previous.getD (initialChannelLifecycle channelId now)
  let inFlight := options.inFlightCount.getD base.inFlightCount
  let lifecycleRevision := options.lifecycleRevision.getD (nextChannelLifecycleRevisionId base)
  match command with
  | .isolate reason => pure
      { channelId, lifecycleRevision, mode := .isolated, reason, startedAt := now
        drainMode := .accepting, inFlightCount := inFlight }
  | .start_drain reason => pure
      { channelId, lifecycleRevision, mode := .draining, reason, startedAt := now
        drainMode := .draining, inFlightCount := inFlight }
  | .complete_drain reason =>
    if base.inFlightCount > 0 then
      throw ⟨.CHANNEL_NOT_ACCEPTING, "Channel " ++ channelId ++ " still has " ++
        toString base.inFlightCount ++ " in-flight submissions."⟩
    else pure
      { channelId, lifecycleRevision, mode := .accepting, reason, startedAt := now
        drainMode := .accepting, inFlightCount := 0 }
  | .restore reason => pure
      { channelId, lifecycleRevision, mode := .accepting, reason, startedAt := now
        drainMode := .accepting, inFlightCount := inFlight }
  | .set_in_flight count => pure { base with lifecycleRevision, inFlightCount := count }

/-! ## The calls -/

/-- What isolating a channel or draining it may be given. -/
structure ChannelCallOptions where
  now : Option String := none
  inFlightCount : Option Int := none
  expectedLifecycleRevision : Option String := none
  deriving DecidableEq

/-- A call on a channel. -/
inductive ChannelCall
  | acquireChannelSubmission (inFlightId : String)
  | releaseChannelSubmission (inFlightId : String)
  | isolateChannel (reason : String) (options : ChannelCallOptions)
  | startChannelDrain (reason : String) (options : ChannelCallOptions)
  | completeChannelDrain (reason : String) (now expectedLifecycleRevision : Option String)
  | restoreChannel (reason : String) (now expectedLifecycleRevision : Option String)
  deriving DecidableEq

inductive ChannelAnswer
  | admission (admission : ChannelSubmissionAdmission)
  | lifecycle (state : ChannelLifecycleState)
  deriving DecidableEq

/-- The revision a call expects, where it expects one and it is another. -/
def staleRevision (expected : Option String) (current : ChannelLifecycleState) : Bool :=
  expected.any fun expected => expected ≠ "" && current.lifecycleRevision ≠ expected

def revisionConflict (channelId expected current : String) : HotAssemblyError :=
  ⟨.LIFECYCLE_REVISION_CONFLICT, "Channel " ++ channelId ++ " lifecycle changed from " ++
    expected ++ " to " ++ current ++ "."⟩

/-- The answer where nothing is acquired. -/
def notAcquired (decision : ChannelAdmissionDecision) (inFlightId : String) (count : Int)
    (state : ChannelLifecycleState) : ChannelSubmissionAdmission :=
  { decision with
    inFlightId, inFlightCount := count, lifecycleRevision := state.lifecycleRevision
    newlyAcquired := false }

/-- The answer where a submission is acquired. -/
def acquired (decision : ChannelAdmissionDecision) (inFlightId : String)
    (next : ChannelLifecycleState) : ChannelSubmissionAdmission :=
  { decision with
    inFlightId, inFlightCount := next.inFlightCount
    lifecycleRevision := next.lifecycleRevision, newlyAcquired := true }

/-! ### In memory -/

/-- One channel of the registry. -/
structure MemoryChannel where
  state : Option ChannelLifecycleState := none
  inFlight : Finset String := ∅
  deriving DecidableEq

namespace CapabilityHotAssemblyRegistry

variable (channelId clock : String)

abbrev Channel := EStateM HotAssemblyError MemoryChannel

def getChannelLifecycle (s : MemoryChannel) : ChannelLifecycleState :=
  s.state.getD (absentChannel channelId)

def assertExpectedLifecycleRevision (current : ChannelLifecycleState)
    (expectedLifecycleRevision : Option String) : Except HotAssemblyError Unit :=
  if staleRevision expectedLifecycleRevision current then
    throw (revisionConflict current.channelId (expectedLifecycleRevision.getD "")
      current.lifecycleRevision)
  else pure ()

/-- What isolating, starting a drain and restoring have in common. -/
def transition (command : ChannelCommand) (options : ChannelCallOptions) :
    Channel ChannelLifecycleState := do
  let s ← get
  let current := getChannelLifecycle channelId s
  check (assertExpectedLifecycleRevision current options.expectedLifecycleRevision)
  let next ← check (transitionChannelLifecycle s.state command channelId clock
    { now := options.now, inFlightCount := options.inFlightCount })
  set { s with state := some next }
  return next

def isolateChannel (reason : String) (options : ChannelCallOptions) :
    Channel ChannelLifecycleState :=
  transition channelId clock (.isolate reason) options

def startChannelDrain (reason : String) (options : ChannelCallOptions) :
    Channel ChannelLifecycleState :=
  transition channelId clock (.start_drain reason) options

/-- The state of a channel that is draining. -/
def requireDraining (s : MemoryChannel) : Except HotAssemblyError ChannelLifecycleState :=
  match s.state with
  | none => throw ⟨.CHANNEL_NOT_ACCEPTING, "Channel " ++ channelId ++ " is not draining."⟩
  | some current =>
    if current.mode ≠ .draining then
      throw ⟨.CHANNEL_NOT_ACCEPTING, "Channel " ++ channelId ++ " is not draining."⟩
    else pure current

def completeChannelDrain (reason : String) (now expectedLifecycleRevision : Option String) :
    Channel ChannelLifecycleState := do
  let _ ← check (requireDraining channelId (← get))
  transition channelId clock (.complete_drain reason) { now, expectedLifecycleRevision }

def restoreChannel (reason : String) (now expectedLifecycleRevision : Option String) :
    Channel ChannelLifecycleState :=
  transition channelId clock (.restore reason) { now, expectedLifecycleRevision }

def acquireChannelSubmission (inFlightId : String) : Channel ChannelSubmissionAdmission := do
  let s ← get
  let state := getChannelLifecycle channelId s
  if inFlightId ∈ s.inFlight then
    return notAcquired (decideChannelAdmission state .in_flight) inFlightId s.inFlight.card state
  else if ¬ (decideChannelAdmission state .new_submit).admitted then
    return notAcquired (decideChannelAdmission state .new_submit) inFlightId s.inFlight.card state
  else
    let flights := insert inFlightId s.inFlight
    let next ← check (transitionChannelLifecycle (some state) (.set_in_flight flights.card)
      channelId clock {})
    set ({ state := some next, inFlight := flights } : MemoryChannel)
    return acquired (decideChannelAdmission state .new_submit) inFlightId next

def releaseChannelSubmission (inFlightId : String) : Channel ChannelLifecycleState := do
  let s ← get
  let state := getChannelLifecycle channelId s
  if inFlightId ∉ s.inFlight then return state
  else
    let flights := s.inFlight.erase inFlightId
    let next ← check (transitionChannelLifecycle (some state) (.set_in_flight flights.card)
      channelId clock {})
    set ({ state := some next, inFlight := flights } : MemoryChannel)
    return next

def perform : ChannelCall → Channel ChannelAnswer
  | .acquireChannelSubmission id => .admission <$> acquireChannelSubmission channelId clock id
  | .releaseChannelSubmission id => .lifecycle <$> releaseChannelSubmission channelId clock id
  | .isolateChannel reason options =>
    .lifecycle <$> isolateChannel channelId clock reason options
  | .startChannelDrain reason options =>
    .lifecycle <$> startChannelDrain channelId clock reason options
  | .completeChannelDrain reason now expected =>
    .lifecycle <$> completeChannelDrain channelId clock reason now expected
  | .restoreChannel reason now expected =>
    .lifecycle <$> restoreChannel channelId clock reason now expected

end CapabilityHotAssemblyRegistry

/-! ### In Postgres -/

/-- A row of `p1_supply_channel_lifecycle`. -/
structure LifecycleRow where
  state : ChannelLifecycleState
  revision : Nat
  deriving DecidableEq

/-- The rows of one channel. -/
structure PostgresChannel where
  row : Option LifecycleRow := none
  inFlight : Finset String := ∅
  deriving DecidableEq

/-- A row as it is read, with the count of the submissions. -/
structure ReadLifecycleRow extends LifecycleRow where
  inFlightCount : Nat

namespace PostgresCapabilityHotAssemblyPort

variable (channelId clock : String)

abbrev Channel := EStateM HotAssemblyError PostgresChannel

def readLockedLifecycle (s : PostgresChannel) : Option ReadLifecycleRow :=
  match s.row with
  | some row => some { row with inFlightCount := s.inFlight.card }
  | none =>
    if s.inFlight.card > 0 then
      some { state := absentChannel channelId, revision := 0, inFlightCount := s.inFlight.card }
    else none

def lifecycleState (row : Option ReadLifecycleRow) : ChannelLifecycleState :=
  match row with
  | none => absentChannel channelId
  | some row =>
    { row.state with
      lifecycleRevision := channelLifecycleRevisionId channelId row.revision
      inFlightCount := row.inFlightCount }

def getChannelLifecycle (s : PostgresChannel) : ChannelLifecycleState :=
  lifecycleState channelId
    (s.row.map fun row => { row with inFlightCount := s.inFlight.card })

/-- The number of the next revision. -/
def nextRevision (current : Option ReadLifecycleRow) : Nat :=
  (current.map (·.revision)).getD 0 + 1

/-- What every transition has in common. -/
def transition (command : ChannelCommand) (options : ChannelCallOptions) :
    Channel ChannelLifecycleState := transaction do
  let s ← get
  let current := readLockedLifecycle channelId s
  let currentState := lifecycleState channelId current
  if staleRevision options.expectedLifecycleRevision currentState then
    throw (revisionConflict channelId (options.expectedLifecycleRevision.getD "")
      currentState.lifecycleRevision)
  let next ← check (transitionChannelLifecycle (some currentState) command channelId clock
    { now := options.now
      inFlightCount := some ((current.map (·.inFlightCount)).getD 0 : Nat)
      lifecycleRevision := some (channelLifecycleRevisionId channelId (nextRevision current)) })
  set { s with row := some ⟨next, nextRevision current⟩ }
  return next

def isolateChannel (reason : String) (options : ChannelCallOptions) :
    Channel ChannelLifecycleState :=
  transition channelId clock (.isolate reason) options

def startChannelDrain (reason : String) (options : ChannelCallOptions) :
    Channel ChannelLifecycleState :=
  transition channelId clock (.start_drain reason) options

def completeChannelDrain (reason : String) (now expectedLifecycleRevision : Option String) :
    Channel ChannelLifecycleState :=
  transition channelId clock (.complete_drain reason) { now, expectedLifecycleRevision }

def restoreChannel (reason : String) (now expectedLifecycleRevision : Option String) :
    Channel ChannelLifecycleState :=
  transition channelId clock (.restore reason) { now, expectedLifecycleRevision }

/-- The record with another count of submissions, and the next revision. -/
def recount (current : Option ReadLifecycleRow) (count : Int) :
    Except HotAssemblyError ChannelLifecycleState :=
  transitionChannelLifecycle (some (lifecycleState channelId current)) (.set_in_flight count)
    channelId clock
    { lifecycleRevision := some (channelLifecycleRevisionId channelId (nextRevision current)) }

def acquireChannelSubmission (inFlightId : String) : Channel ChannelSubmissionAdmission :=
    transaction do
  let s ← get
  let current := readLockedLifecycle channelId s
  let state := lifecycleState channelId current
  if inFlightId ∈ s.inFlight then
    return notAcquired (decideChannelAdmission state .in_flight)
      inFlightId state.inFlightCount state
  else if ¬ (decideChannelAdmission state .new_submit).admitted then
    return notAcquired (decideChannelAdmission state .new_submit)
      inFlightId state.inFlightCount state
  else
    let next ← check (recount channelId clock current (state.inFlightCount + 1))
    set ({ row := some ⟨next, nextRevision current⟩, inFlight := insert inFlightId s.inFlight } :
      PostgresChannel)
    return acquired (decideChannelAdmission state .new_submit)
      inFlightId next

def releaseChannelSubmission (inFlightId : String) : Channel ChannelLifecycleState :=
    transaction do
  let s ← get
  let current := readLockedLifecycle channelId s
  let state := lifecycleState channelId current
  if inFlightId ∉ s.inFlight then return state
  else
    let next ← check (recount channelId clock current (max 0 (state.inFlightCount - 1)))
    set ({ row := some ⟨next, nextRevision current⟩, inFlight := s.inFlight.erase inFlightId } :
      PostgresChannel)
    return next

def perform : ChannelCall → Channel ChannelAnswer
  | .acquireChannelSubmission id => .admission <$> acquireChannelSubmission channelId clock id
  | .releaseChannelSubmission id => .lifecycle <$> releaseChannelSubmission channelId clock id
  | .isolateChannel reason options =>
    .lifecycle <$> isolateChannel channelId clock reason options
  | .startChannelDrain reason options =>
    .lifecycle <$> startChannelDrain channelId clock reason options
  | .completeChannelDrain reason now expected =>
    .lifecycle <$> completeChannelDrain channelId clock reason now expected
  | .restoreChannel reason now expected =>
    .lifecycle <$> restoreChannel channelId clock reason now expected

end PostgresCapabilityHotAssemblyPort

end MeiyeAgent
