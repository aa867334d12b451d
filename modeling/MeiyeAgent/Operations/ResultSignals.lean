import Mathlib.Data.List.Infix
import MeiyeAgent.Foundation.Schemas

/-!
# Operations/ResultSignals — what a merchant reports of a published package

A signal is recorded, corrected and withdrawn by rows that are only appended; a row that another
supersedes is not active.  A call looks at the package twice before it takes the lock of its
workspace: to answer a repetition of an earlier call, and to compare revisions.
-/

namespace MeiyeAgent

/-! ## Rows -/

inductive ResultSignalKind
  | attention | inquiry | contact_added | private_message | wechat_added | appointment
  | voucher_purchase | voucher_purchased | redemption | redeemed | store_visit | no_activity
  deriving DecidableEq

inductive OutcomeSignal
  | attention | inquiry | wechat | booking | purchase | redeemed | visit | published | feedback
  | no_activity
  deriving DecidableEq

inductive ResultSignalSource
  | verified_adapter | merchant_recorded | inferred_temporal
  deriving DecidableEq

inductive ResultSignalStatus
  | active | superseded | withdrawn
  deriving DecidableEq

/-- A row; its revision is absent where it is `unknown`, as on rows of an earlier form. -/
structure ContentPackageResultSignal where
  actorId : String
  contentPackageRevision : Option Int
  id : String
  kind : ResultSignalKind
  note : Option String := none
  occurredAt : String
  quantity : Option Int := none
  source : ResultSignalSource
  sourceRef : Option String := none
  status : Option ResultSignalStatus := none
  supersedesSignalId : Option String := none
  deriving DecidableEq

def ContentPackageResultSignal.statusOrActive (row : ContentPackageResultSignal) :
    ResultSignalStatus := row.status.getD .active

inductive PackageDeliveryEventType
  | assisted_handoff_prepared | automatic_publish_result | manual_publish_result | export_operation
  deriving DecidableEq

inductive PublishStatus
  | published | failed | unknown
  deriving DecidableEq

structure PackageDeliveryEvent where
  type : PackageDeliveryEventType
  status : Option PublishStatus := none
  deriving DecidableEq

/-- A content package, as far as its results read it. -/
structure DeliveredPackage where
  id : String
  revision : Int
  deliveryEvents : List PackageDeliveryEvent
  resultSignals : List ContentPackageResultSignal
  updatedAt : String
  deriving DecidableEq

def hasPublishedDelivery (contentPackage : DeliveredPackage) : Bool :=
  contentPackage.deliveryEvents.any fun event =>
    (event.type = .automatic_publish_result ∨ event.type = .manual_publish_result) ∧
      event.status = some .published

/-! ## Errors -/

inductive ContentPackageDeliveryErrorCode
  | CONTENT_PACKAGE_NOT_PUBLISHED
  | CONTENT_PACKAGE_REVISION_CONFLICT
  | RESULT_SIGNAL_NOTE_REJECTED
  | RESULT_SIGNAL_OCCURRED_AT_OUT_OF_RANGE
  | RESULT_SIGNAL_IDEMPOTENCY_CONFLICT
  | RESULT_SIGNAL_SUPERSEDES_NOT_FOUND
  | RESULT_SIGNAL_FEEDBACK_NO_ACTIVITY_FORBIDDEN
  deriving DecidableEq

structure ContentPackageDeliveryError where
  code : ContentPackageDeliveryErrorCode
  message : String
  deriving DecidableEq

def resultRevisionConflict : ContentPackageDeliveryError where
  code := .CONTENT_PACKAGE_REVISION_CONFLICT
  message := "ContentPackage revision changed. Refresh and retry."

/-! ## The contracts of the results -/

/-- `mapContentPackageResultKindToOutcomeSignal`. -/
def ResultSignalKind.outcomeSignal : ResultSignalKind → OutcomeSignal
  | .attention => .attention
  | .inquiry | .private_message => .inquiry
  | .wechat_added | .contact_added => .wechat
  | .appointment => .booking
  | .voucher_purchase | .voucher_purchased => .purchase
  | .redeemed | .redemption => .redeemed
  | .store_visit => .visit
  | .no_activity => .no_activity

def OutcomeSignal.name : OutcomeSignal → String
  | .attention => "attention"
  | .inquiry => "inquiry"
  | .wechat => "wechat"
  | .booking => "booking"
  | .purchase => "purchase"
  | .redeemed => "redeemed"
  | .visit => "visit"
  | .published => "published"
  | .feedback => "feedback"
  | .no_activity => "no_activity"

/-- A text has another in it. -/
def mentions (text needle : String) : Bool := needle.toList <:+: text.toList

/-- `/没动静|无反馈|没有人问|无人问|no[_ ]?activity/iu`. -/
def encodesNoActivity (text : String) : Bool :=
  let text := String.ofList (text.toList.map Char.toLower)
  ["没动静", "无反馈", "没有人问", "无人问", "noactivity", "no_activity", "no activity"].any
    (mentions text)

def isForbiddenNoActivityEncoding (signal : OutcomeSignal) (note : Option String) : Bool :=
  if signal = .no_activity then false
  else if signal ≠ .feedback then false
  else encodesNoActivity (Text.trim (note.getD ""))

def buildOutcomeEvidenceIdempotencyKey (contentPackageId contentPackageRevision : String)
    (signal : OutcomeSignal) (observedAt : String) (sourceRef : Option String) : String :=
  let sourcePart := (truthy (sourceRef.map Text.trim)).getD "_"
  "|".intercalate [contentPackageId, contentPackageRevision, signal.name, observedAt, sourcePart]

/-- `/1[3-9]\d{9}/u`. -/
def hasMobileNumber : List Char → Bool
  | [] => false
  | c :: cs =>
    (c = '1' ∧ (cs.head?.any fun d => '3' ≤ d ∧ d ≤ '9') ∧
      ((cs.tail.take 9).length = 9 ∧ (cs.tail.take 9).all Char.isDigit)) ∨ hasMobileNumber cs

def isUnsafeResultSignalNote (note : Option String) : Bool :=
  match truthy note with
  | none => false
  | some note =>
    let trimmed := Text.trim note
    if 120 < (codeUnits trimmed).length then true
    else if ["微信", "手机", "电话"].any (mentions trimmed) ∨ hasMobileNumber trimmed.toList then
      true
    else mentions trimmed "@" ∧ mentions trimmed "."

def RESULT_SIGNAL_BACKDATE_WINDOW_DAYS : Int := 30

def assertResultSignalOccurredAtInWindow (host : Host) (occurredAt recordedAt : String) :
    Except ContentPackageDeliveryError Unit :=
  let outOfRange (message : String) : Except ContentPackageDeliveryError Unit :=
    throw { code := .RESULT_SIGNAL_OCCURRED_AT_OUT_OF_RANGE, message }
  match host.dateParse occurredAt, host.dateParse recordedAt with
  | none, _ => outOfRange "The recorded time is not a valid timestamp."
  | some _, none => pure ()
  | some at_, some now =>
    if now < at_ then outOfRange "A result signal cannot be recorded as happening in the future."
    else if at_ < now - RESULT_SIGNAL_BACKDATE_WINDOW_DAYS * 86400000 then
      outOfRange "A result signal can be backdated by at most 30 days."
    else pure ()

/-- The rows that are not superseded, withdrawn or of an unknown revision. -/
def projectActiveResultSignals (history : List ContentPackageResultSignal) :
    List ContentPackageResultSignal :=
  let superseded := history.filterMap fun row => truthy row.supersedesSignalId
  history.filter fun row =>
    row.contentPackageRevision.isSome ∧ row.statusOrActive ≠ .withdrawn ∧
      row.statusOrActive ≠ .superseded ∧ row.id ∉ superseded

/-! ## Calls -/

inductive ResultSignalAction
  | record | correct | withdraw
  deriving DecidableEq

structure ResultSignalInput where
  action : Option ResultSignalAction := none
  expectedRevision : Int
  kind : ResultSignalKind
  note : Option String := none
  occurredAt : Option String := none
  quantity : Option Int := none
  sourceRef : Option String := none
  supersedesSignalId : Option String := none
  deriving DecidableEq

/-- A call, with the merchant who makes it, the clock it reads and the id it would give a row. -/
structure ResultSignalCall extends ResultSignalInput where
  userId : String
  recordedAt : String
  signalId : String
  deriving DecidableEq

namespace ResultSignalCall

def actionOrRecord (call : ResultSignalCall) : ResultSignalAction := call.action.getD .record

def observedAt (call : ResultSignalCall) : String := call.occurredAt.getD call.recordedAt

end ResultSignalCall

/-- `resultSignalMatchesIdempotencyIdentity`. -/
def resultSignalMatchesIdempotencyIdentity (row : ContentPackageResultSignal) (packageId : String)
    (kind : ResultSignalKind) (observedAt : String) (sourceRef : Option String) : Bool :=
  row.statusOrActive ≠ .withdrawn ∧ row.contentPackageRevision.isSome ∧
    buildOutcomeEvidenceIdempotencyKey packageId "_" row.kind.outcomeSignal row.occurredAt
        row.sourceRef =
      buildOutcomeEvidenceIdempotencyKey packageId "_" kind.outcomeSignal observedAt sourceRef

def resultSignalMatchesWriteIdentity (row : ContentPackageResultSignal) (call : ResultSignalCall)
    (packageId : String) : Bool :=
  if call.actionOrRecord = .record then
    resultSignalMatchesIdempotencyIdentity row packageId call.kind call.observedAt call.sourceRef
  else
    row.contentPackageRevision = some call.expectedRevision ∧
      row.supersedesSignalId = call.supersedesSignalId ∧
        (call.actionOrRecord = .withdraw ↔ row.statusOrActive = .withdrawn)

def resultSignalPayloadMatches (row : ContentPackageResultSignal) (input : ResultSignalInput) :
    Bool :=
  row.kind = input.kind ∧ row.note.getD "" = input.note.getD "" ∧ row.quantity = input.quantity ∧
    row.sourceRef.getD "" = input.sourceRef.getD "" ∧
      (input.occurredAt = none ∨ input.occurredAt = some row.occurredAt)

/-- The answer where a row is there that the call would write: the package as it stands, unless the
revision or the payload is another. -/
def answerDuplicate (contentPackage : DeliveredPackage) (duplicate : ContentPackageResultSignal)
    (call : ResultSignalCall) : Except ContentPackageDeliveryError DeliveredPackage :=
  if some call.expectedRevision ≠ duplicate.contentPackageRevision ∧
      call.expectedRevision ≠ contentPackage.revision then throw resultRevisionConflict
  else if ¬ resultSignalPayloadMatches duplicate call.toResultSignalInput then
    throw
      { code := .RESULT_SIGNAL_IDEMPOTENCY_CONFLICT
        message := "A different result signal already exists for this idempotency key." }
  else pure contentPackage

/-- What a call is asked before it looks for repetitions. -/
def assertResultSignalCall (host : Host) (contentPackage : DeliveredPackage)
    (call : ResultSignalCall) : Except ContentPackageDeliveryError Unit := do
  if ¬ hasPublishedDelivery contentPackage then
    throw
      { code := .CONTENT_PACKAGE_NOT_PUBLISHED
        message := "Result signals can only be recorded after a published delivery event." }
  if isUnsafeResultSignalNote call.note then
    throw
      { code := .RESULT_SIGNAL_NOTE_REJECTED
        message :=
          "A result note must stay a short reminder and must not carry contact details." }
  if isForbiddenNoActivityEncoding call.kind.outcomeSignal call.note then
    throw
      { code := .RESULT_SIGNAL_FEEDBACK_NO_ACTIVITY_FORBIDDEN
        message := "no_activity must use kind=no_activity; do not encode via feedback notes." }
  if call.actionOrRecord ≠ .record ∧ truthy call.supersedesSignalId = none then
    throw
      { code := .RESULT_SIGNAL_SUPERSEDES_NOT_FOUND
        message := (if call.actionOrRecord = .correct then "correct" else "withdraw") ++
          " requires supersedesSignalId." }
  match truthy call.occurredAt with
  | some occurredAt => assertResultSignalOccurredAtInWindow host occurredAt call.recordedAt
  | none => pure ()

/-- The row of a package that a call would write again. -/
def duplicateOf (contentPackage : DeliveredPackage) (call : ResultSignalCall) :
    Option ContentPackageResultSignal :=
  contentPackage.resultSignals.find? (resultSignalMatchesWriteIdentity · call contentPackage.id)

/-- The first look of a call at the package: an answer, or none where the call goes on. -/
def firstLook (host : Host) (contentPackage : DeliveredPackage) (call : ResultSignalCall) :
    Except ContentPackageDeliveryError (Option DeliveredPackage) := do
  assertResultSignalCall host contentPackage call
  match duplicateOf contentPackage call with
  | some duplicate => some <$> answerDuplicate contentPackage duplicate call
  | none => return none

/-- The row a call writes. -/
def ResultSignalCall.signal (call : ResultSignalCall) (revision : Int) :
    ContentPackageResultSignal where
  actorId := call.userId
  contentPackageRevision := some revision
  id := call.signalId
  kind := call.kind
  note := truthy call.note
  occurredAt := call.observedAt
  quantity := call.quantity.filter (· ≠ 0)
  source := .merchant_recorded
  sourceRef := truthy call.sourceRef
  status := some (if call.actionOrRecord = .withdraw then .withdrawn else .active)
  supersedesSignalId := truthy call.supersedesSignalId

/-- What a call answers and writes under the lock. -/
def lockedWrite (current : DeliveredPackage) (call : ResultSignalCall) :
    Except ContentPackageDeliveryError (DeliveredPackage × Option ContentPackageResultSignal) := do
  if call.actionOrRecord ≠ .record ∧
      ¬ current.resultSignals.any (fun row => some row.id = call.supersedesSignalId) then
    throw
      { code := .RESULT_SIGNAL_SUPERSEDES_NOT_FOUND
        message := "The supersedesSignalId does not exist on this ContentPackage." }
  match duplicateOf current call with
  | some duplicate => (·, none) <$> answerDuplicate current duplicate call
  | none =>
    if current.revision ≠ call.expectedRevision then throw resultRevisionConflict
    let signal := call.signal current.revision
    return ({ current with
      resultSignals := current.resultSignals ++ [signal]
      revision := current.revision + 1
      updatedAt := call.recordedAt }, some signal)

/-! ## Runs -/

/-- What became of a call: what it returned, with the row it wrote, or its error. -/
structure ResultSignalOutcome where
  call : ResultSignalCall
  answer : Except ContentPackageDeliveryError (DeliveredPackage × Option ContentPackageResultSignal)

/-- **The package and the calls on their way**: those that have looked once, and those that have
compared revisions. -/
structure ResultSignalState where
  package : DeliveredPackage
  looked : List ResultSignalCall := []
  compared : List ResultSignalCall := []
  outcomes : List ResultSignalOutcome := []

/-- A step of one call. -/
inductive ResultSignalMove
  | look (call : ResultSignalCall)
  | compare (call : ResultSignalCall)
  | write (call : ResultSignalCall)
  deriving DecidableEq

section Steps

variable (host : Host)

def ResultSignalState.ended (s : ResultSignalState) (call : ResultSignalCall)
    (answer : Except ContentPackageDeliveryError
      (DeliveredPackage × Option ContentPackageResultSignal)) : ResultSignalState :=
  { s with outcomes := s.outcomes ++ [{ call, answer }] }

/-- One step: the first look, the second read with the caller's revision, the locked write. -/
def ResultSignalState.step (s : ResultSignalState) : ResultSignalMove → ResultSignalState
  | .look call =>
    match firstLook host s.package call with
    | .error e => s.ended call (.error e)
    | .ok (some contentPackage) => s.ended call (.ok (contentPackage, none))
    | .ok none => { s with looked := call :: s.looked }
  | .compare call =>
    if call ∈ s.looked then
      if s.package.revision ≠ call.expectedRevision then
        { s with looked := s.looked.erase call }.ended call (.error resultRevisionConflict)
      else { s with looked := s.looked.erase call, compared := call :: s.compared }
    else s
  | .write call =>
    if call ∈ s.compared then
      let s := { s with compared := s.compared.erase call }
      match lockedWrite s.package call with
      | .error e => s.ended call (.error e)
      | .ok (contentPackage, signal) =>
        { s with package := contentPackage }.ended call (.ok (contentPackage, signal))
    else s

end Steps

end MeiyeAgent
