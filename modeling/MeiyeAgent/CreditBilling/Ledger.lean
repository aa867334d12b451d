import MeiyeAgent.Foundation.Runtime
import MeiyeAgent.Machinery.Greedy

/-!
# CreditBilling/Ledger — the in-memory credit ledger

Grants open **lots**, consumption draws on lots first-expired-first-out and records one USAGE row
per lot touched, refunds answer USAGE rows one by one, and expiry empties lots.  Every operation is
an `EStateM Thrown MemoryCreditLedger`: a throw leaves behind whatever was written before it.

The balance of a workspace is a **projection** of its lots and transactions at a moment `asOf`.
-/

namespace MeiyeAgent

open Effect Table Greedy Text

/-! ## Lots and transactions -/

def CREDIT_GRANT_IDEMPOTENCY_PREFIX : String := "grant:"

def CREDIT_CONSUME_IDEMPOTENCY_PREFIX : String := "consume:"

/-- `CREDIT_GRANT_TRANSACTION_TYPES`. -/
inductive CreditGrantTransactionType
  | REGISTER_GIFT
  | SUBSCRIPTION_RENEWAL
  | PURCHASE_PACKAGE
  | REDEMPTION_CODE
  deriving DecidableEq, Repr

/-- A grant type, or one of the three kinds of movement on a lot. -/
inductive CreditTransactionType
  | grant (type : CreditGrantTransactionType)
  | USAGE
  | REFUND
  | EXPIRE
  deriving DecidableEq, Repr

/-- A grant, and what is left of it. -/
structure CreditGrantLot where
  id : String
  workspaceId : String
  originalCredits : Int
  remainingCredits : Int
  expirationDate : Option String
  transactionType : CreditGrantTransactionType
  sourceRef : Option String
  grantIdempotencyKey : String
  revision : Nat
  createdAt : String
  deriving DecidableEq, Repr

/-- A row of the book. -/
structure CreditLotTransaction where
  id : String
  workspaceId : String
  transactionType : CreditTransactionType
  credits : Int
  lotId : String
  relatedTransactionId : Option String
  operationId : String
  actorId : String
  correlationId : String
  createdAt : String
  credited : Bool
  deriving DecidableEq, Repr

/-- The sums of a workspace. -/
structure CreditBalanceProjection where
  grantedCredits : Int
  usedCredits : Int
  refundedCredits : Int
  expiredCredits : Int
  availableCredits : Int
  deriving DecidableEq, Repr

structure GrantCreditsInput where
  id : String
  workspaceId : String
  credits : Int
  expirationDate : Option String
  transactionType : CreditGrantTransactionType
  sourceRef : Option String := none
  createdAt : String
  actorId : Option String := none
  correlationId : Option String := none
  grantIdempotencyKey : Option String := none
  deriving DecidableEq, Repr

structure ConsumeCreditsInput where
  workspaceId : String
  credits : Int
  transactionId : String
  actorId : String
  correlationId : String
  createdAt : String
  deriving DecidableEq, Repr

structure RefundUsageInput where
  workspaceId : String
  usageOperationId : String
  refundOperationId : String
  credits : Option Int := none
  actorId : String
  correlationId : String
  createdAt : String
  deriving DecidableEq, Repr

structure ExpireLotsInput where
  workspaceId : String
  now : String
  actorId : String
  correlationId : String
  deriving DecidableEq, Repr

structure ExpireSubscriptionLotsInput where
  workspaceId : String
  subscriptionId : String
  actorId : String
  correlationId : String
  createdAt : String
  deriving DecidableEq, Repr

variable (host : Host)

/-! ## The balance projection -/

/-- The lot expires after `asOf`, or never. -/
def CreditGrantLot.openAt (lot : CreditGrantLot) (asOf : String) : Bool :=
  match lot.expirationDate with
  | none => true
  | some date => Num.gt (host.dateParse date) (host.dateParse asOf)

/-- The lot has an expiry date, and it is not after `asOf`. -/
def CreditGrantLot.dueAt (lot : CreditGrantLot) (asOf : String) : Bool :=
  match lot.expirationDate with
  | none => false
  | some date => Num.le (host.dateParse date) (host.dateParse asOf)

/-- The credits of the transactions whose type is one of `types`. -/
def totalOf (transactions : List CreditLotTransaction) (types : CreditTransactionType → Bool) :
    Int :=
  tally (·.credits) (transactions.filter fun t => types t.transactionType)

def CreditTransactionType.isGrant : CreditTransactionType → Bool
  | .grant _ => true
  | _ => false

/-- The sums of the rows, and what is left in lots that are valid. -/
def projectCreditBalance (lots : List CreditGrantLot) (transactions : List CreditLotTransaction)
    (asOf : String) : CreditBalanceProjection where
  grantedCredits := totalOf transactions (·.isGrant)
  usedCredits := totalOf transactions (· == .USAGE)
  refundedCredits :=
    tally (·.credits) (transactions.filter fun t => t.transactionType == .REFUND && t.credited)
  expiredCredits := totalOf transactions (· == .EXPIRE) +
    tally (·.remainingCredits)
      (lots.filter fun lot => 0 < lot.remainingCredits && lot.dueAt host asOf)
  availableCredits := tally (·.remainingCredits) (lots.filter (·.openAt host asOf))

/-! ## First expired, first out -/

/-- The earlier lot first, then by id. -/
def compareCreatedAtAndId (left right : CreditGrantLot) : Option Int :=
  match Num.sub (host.dateParse left.createdAt) (host.dateParse right.createdAt) with
  | some 0 => some (host.localeCompare left.id right.id)
  | byCreatedAt => byCreatedAt

/-- The lot that expires sooner first. -/
def compareCreditLotsForFefo (left right : CreditGrantLot) : Option Int :=
  match left.expirationDate, right.expirationDate with
  | none, none => compareCreatedAtAndId host left right
  | none, some _ => some 1
  | some _, none => some (-1)
  | some l, some r =>
    match Num.sub (host.dateParse l) (host.dateParse r) with
    | some 0 => compareCreatedAtAndId host left right
    | byExpiry => byExpiry

structure CreditAllocation where
  lotId : String
  credits : Int
  deriving DecidableEq, Repr

/-- What each lot gives of an amount. -/
def allocateCreditConsumption (lots : List CreditGrantLot) (credits : Int) :
    List CreditAllocation :=
  if !isSafeInteger credits || credits ≤ 0 then []
  else
    (greedy (·.remainingCredits) credits
      (sortBy (compareCreditLotsForFefo host) (lots.filter fun lot => 0 < lot.remainingCredits))).map
      fun (lot, amount) => ⟨lot.id, amount⟩

/-! ## Keys and checks -/

def normalizeCreditGrantIdempotencyKey (lotId : String) (explicit : Option String) :
    Except Thrown String :=
  let value := trimmedOr explicit (CREDIT_GRANT_IDEMPOTENCY_PREFIX ++ lotId)
  if startsWith value CREDIT_CONSUME_IDEMPOTENCY_PREFIX then
    .error (.domain .INVALID_STATE
      "Credit grant idempotency key must not use the consume: namespace.")
  else if startsWith value CREDIT_GRANT_IDEMPOTENCY_PREFIX then .ok value
  else .ok (CREDIT_GRANT_IDEMPOTENCY_PREFIX ++ value)

def normalizeCreditConsumeIdempotencyKey (value : String) : Except Thrown String :=
  if isBlank value then
    .error (.domain .INVALID_STATE "Credit consume idempotency key is required.")
  else if startsWith value CREDIT_GRANT_IDEMPOTENCY_PREFIX then
    .error (.domain .INVALID_STATE
      "Credit consume idempotency key must not use the grant: namespace.")
  else if startsWith value CREDIT_CONSUME_IDEMPOTENCY_PREFIX then .ok value
  else .ok (CREDIT_CONSUME_IDEMPOTENCY_PREFIX ++ value)

def sameGrantExpiry (lot : CreditGrantLot) (input : GrantCreditsInput) : Bool :=
  match lot.expirationDate, input.expirationDate with
  | some l, some r =>
    l == r || Num.eq (Num.sub (host.dateParse l) (host.dateParse lot.createdAt))
      (Num.sub (host.dateParse r) (host.dateParse input.createdAt))
  | l, r => l == r

def sameCreditGrantFacts (lot : CreditGrantLot) (input : GrantCreditsInput)
    (grantIdempotencyKey : String) : Bool :=
  lot.originalCredits == input.credits && sameGrantExpiry host lot input &&
    lot.transactionType == input.transactionType && lot.sourceRef == input.sourceRef &&
    lot.grantIdempotencyKey == grantIdempotencyKey

def assertCredits (value : Int) (field : String) : Except Thrown Unit :=
  if !isSafeInteger value || value ≤ 0 then
    .error (.domain .INVALID_STATE (field ++ " must be a positive integer credit amount."))
  else .ok ()

def assertTimestamp (value field : String) : Except Thrown Unit :=
  if isBlank value || (host.dateParse value).isNone then
    .error (.domain .INVALID_STATE (field ++ " must be an ISO timestamp."))
  else .ok ()

def assertGrantInput (input : GrantCreditsInput) : Except Thrown Unit := do
  if isBlank input.id || isBlank input.workspaceId then
    throw (.domain .INVALID_STATE "Credit grant identity and workspace are required.")
  assertCredits input.credits "credits"
  assertTimestamp host input.createdAt "createdAt"
  match input.expirationDate with
  | none => pure ()
  | some date =>
    assertTimestamp host date "expirationDate"
    if Num.le (host.dateParse date) (host.dateParse input.createdAt) then
      throw (.domain .INVALID_STATE "Credit grant expiration must be after its creation time.")

/-! ## The ledger and its five operations -/

/-- The two tables of the ledger, each in insertion order. -/
structure MemoryCreditLedger where
  lots : List CreditGrantLot
  transactions : List CreditLotTransaction
  deriving DecidableEq, Repr

/-- The ledger as constructed. -/
def MemoryCreditLedger.empty : MemoryCreditLedger := ⟨[], []⟩

/-- A call on the ledger. -/
abbrev LedgerM := EStateM Thrown MemoryCreditLedger

/-- The lot `id` of a workspace. -/
def CreditGrantLot.isLot (workspaceId id : String) (lot : CreditGrantLot) : Bool :=
  lot.workspaceId == workspaceId && lot.id == id

/-- A USAGE row of an operation. -/
def CreditLotTransaction.isUsageOf (workspaceId operationId : String)
    (t : CreditLotTransaction) : Bool :=
  t.workspaceId == workspaceId && t.transactionType == .USAGE && t.operationId == operationId

/-- A REFUND row answering the USAGE row `usageId`. -/
def CreditLotTransaction.isRefundOf (workspaceId usageId : String)
    (t : CreditLotTransaction) : Bool :=
  t.workspaceId == workspaceId && t.transactionType == .REFUND &&
    t.relatedTransactionId == some usageId

/-- An EXPIRE row of a lot. -/
def CreditLotTransaction.isExpiryOf (workspaceId lotId : String) (t : CreditLotTransaction) : Bool :=
  t.workspaceId == workspaceId && t.transactionType == .EXPIRE && t.lotId == lotId

namespace MemoryCreditLedger

def listLots (s : MemoryCreditLedger) (workspaceId : String) : List CreditGrantLot :=
  s.lots.filter (·.workspaceId == workspaceId)

def listTransactions (s : MemoryCreditLedger) (workspaceId : String) : List CreditLotTransaction :=
  s.transactions.filter (·.workspaceId == workspaceId)

def project (s : MemoryCreditLedger) (workspaceId asOf : String) : CreditBalanceProjection :=
  projectCreditBalance host (s.listLots workspaceId) (s.listTransactions workspaceId) asOf

/-- The lot's balance set and its revision raised: every movement on a lot is this assignment. -/
def setRemaining (s : MemoryCreditLedger) (workspaceId id : String) (remaining : Int) :
    MemoryCreditLedger :=
  { s with
    lots := updateFirst (·.isLot workspaceId id)
      (fun lot => { lot with remainingCredits := remaining, revision := lot.revision + 1 }) s.lots }

/-- `this.transactions.push`. -/
def push (s : MemoryCreditLedger) (t : CreditLotTransaction) : MemoryCreditLedger :=
  { s with transactions := s.transactions ++ [t] }

end MemoryCreditLedger

/-- The lot a grant opens. -/
def grantedLot (input : GrantCreditsInput) (key : String) : CreditGrantLot where
  id := input.id
  workspaceId := input.workspaceId
  originalCredits := input.credits
  remainingCredits := input.credits
  expirationDate := input.expirationDate
  transactionType := input.transactionType
  sourceRef := if input.sourceRef == some "" then none else input.sourceRef
  grantIdempotencyKey := key
  revision := 1
  createdAt := input.createdAt

/-- The transaction recording a grant. -/
def grantTransaction (input : GrantCreditsInput) (lot : CreditGrantLot) (key : String) :
    CreditLotTransaction where
  id := "credit-grant:" ++ lot.id
  workspaceId := lot.workspaceId
  transactionType := .grant lot.transactionType
  credits := lot.originalCredits
  lotId := lot.id
  relatedTransactionId := none
  operationId := key
  actorId := input.actorId.getD "system"
  correlationId := input.correlationId.getD "credit-grant"
  createdAt := lot.createdAt
  credited := true

/-- Credits are granted; the same grant again is answered with its lot. -/
def grant (input : GrantCreditsInput) : LedgerM CreditGrantLot := do
  check (assertGrantInput host input)
  let key ← check (normalizeCreditGrantIdempotencyKey input.id input.grantIdempotencyKey)
  let s ← get
  match s.lots.find? fun lot =>
      lot.workspaceId == input.workspaceId &&
        (lot.id == input.id || lot.grantIdempotencyKey == key) with
  | some existing =>
    if sameCreditGrantFacts host existing input key then pure existing
    else throw (.domain .IDEMPOTENCY_CONFLICT
      ("Credit grant " ++ input.id ++ " already exists with different facts."))
  | none => do
    let lot := grantedLot input key
    set (MemoryCreditLedger.mk (s.lots ++ [lot])
      (s.transactions ++ [grantTransaction input lot key]))
    pure lot

/-! ### Expiry -/

/-- The EXPIRE row of a lot emptied at revision `revision`; `family` tells the two expiries
apart. -/
def expireTransaction (family : String) (lot : CreditGrantLot) (actorId correlationId : String)
    (createdAt : String) : CreditLotTransaction where
  id := indexed ("credit-" ++ family ++ ":" ++ lot.id) (lot.revision + 1)
  workspaceId := lot.workspaceId
  transactionType := .EXPIRE
  credits := lot.remainingCredits
  lotId := lot.id
  relatedTransactionId := none
  operationId := indexed (family ++ ":" ++ lot.id) (lot.revision + 1)
  actorId := actorId
  correlationId := correlationId
  createdAt := createdAt
  credited := false

/-- The lots of `lots`, emptied one after another. -/
def expireEach (family actorId correlationId createdAt : String) :
    List CreditGrantLot → LedgerM (List CreditLotTransaction)
  | [] => pure []
  | lot :: lots => do
    let transaction := expireTransaction family lot actorId correlationId createdAt
    modify fun s => (s.setRemaining lot.workspaceId lot.id 0).push transaction
    let expired ← expireEach family actorId correlationId createdAt lots
    pure (transaction :: expired)

/-- The lots whose time is over lose what is left of them. -/
def expireLots (input : ExpireLotsInput) : LedgerM (List CreditLotTransaction) := do
  check (assertTimestamp host input.now "now")
  let s ← get
  expireEach "expire" input.actorId input.correlationId input.now
    (sortBy (compareCreditLotsForFefo host) (s.lots.filter fun lot =>
      lot.workspaceId == input.workspaceId && lot.dueAt host input.now &&
        0 < lot.remainingCredits))

/-- The lots an upgrade revokes: what a renewal of the subscription granted. -/
def CreditGrantLot.isRenewalOf (workspaceId subscriptionId : String) (lot : CreditGrantLot) : Bool :=
  lot.workspaceId == workspaceId && lot.transactionType == .SUBSCRIPTION_RENEWAL &&
    lot.sourceRef == some subscriptionId

def expireSubscriptionLots (input : ExpireSubscriptionLotsInput) :
    LedgerM (List CreditLotTransaction) := do
  let s ← get
  expireEach "expire-subscription" input.actorId input.correlationId input.createdAt
    (s.lots.filter fun lot =>
      lot.isRenewalOf input.workspaceId input.subscriptionId && 0 < lot.remainingCredits)

/-! ### Consumption -/

def usageTransaction (input : ConsumeCreditsInput) (operationId : String) (index : Nat)
    (lotId : String) (credits : Int) : CreditLotTransaction where
  id := indexed operationId index
  workspaceId := input.workspaceId
  transactionType := .USAGE
  credits := credits
  lotId := lotId
  relatedTransactionId := none
  operationId := operationId
  actorId := input.actorId
  correlationId := input.correlationId
  createdAt := input.createdAt
  credited := false

/-- The allocations charged in turn, each to its lot and with a USAGE row of its own. -/
def chargeEach (input : ConsumeCreditsInput) (operationId : String) :
    Nat → List CreditAllocation → LedgerM (List CreditLotTransaction)
  | _, [] => pure []
  | index, allocation :: allocations => do
    let s ← get
    match s.lots.find? (·.isLot input.workspaceId allocation.lotId) with
    | none => throw (.error "Credit lot allocation disappeared.")
    | some lot => do
      let transaction := usageTransaction input operationId index lot.id allocation.credits
      set ((s.setRemaining input.workspaceId allocation.lotId
        (lot.remainingCredits - allocation.credits)).push transaction)
      let charged ← chargeEach input operationId (index + 1) allocations
      pure (transaction :: charged)

/-- Credits are taken, from the lots that expire first. -/
def consume (input : ConsumeCreditsInput) : LedgerM (List CreditLotTransaction) := do
  check (assertCredits input.credits "credits")
  check (assertTimestamp host input.createdAt "createdAt")
  let operationId ← check (normalizeCreditConsumeIdempotencyKey input.transactionId)
  let s ← get
  let replay := s.transactions.filter (·.isUsageOf input.workspaceId operationId)
  if replay ≠ [] then
    if tally (·.credits) replay ≠ input.credits then
      throw (.domain .IDEMPOTENCY_CONFLICT
        "Credit usage operation was replayed with different facts.")
    else pure replay
  else do
    let _ ← expireLots host ⟨input.workspaceId, input.createdAt, input.actorId, input.correlationId⟩
    let s ← get
    let allocations := allocateCreditConsumption host
      (s.lots.filter fun lot => lot.workspaceId == input.workspaceId &&
        lot.openAt host input.createdAt) input.credits
    if tally (·.credits) allocations ≠ input.credits then
      throw (.domain .INSUFFICIENT_ENTITLEMENT "Insufficient credits.")
    else chargeEach input operationId 0 allocations

/-! ### Refunds -/

def refundTransaction (input : RefundUsageInput) (index : Nat) (usage : CreditLotTransaction)
    (lotId : String) (credits : Int) (active : Bool) : CreditLotTransaction where
  id := indexed input.refundOperationId index
  workspaceId := input.workspaceId
  transactionType := .REFUND
  credits := credits
  lotId := lotId
  relatedTransactionId := some usage.id
  operationId := input.refundOperationId
  actorId := input.actorId
  correlationId := input.correlationId
  createdAt := input.createdAt
  credited := active

/-- A USAGE row answered by a refund of `credits`: the lot gets them back unless it has expired,
by its date or by an EXPIRE row. -/
def refundRow (input : RefundUsageInput) (index : Nat) (usage : CreditLotTransaction)
    (credits : Int) : LedgerM CreditLotTransaction := do
  let s ← get
  match s.lots.find? (·.isLot input.workspaceId usage.lotId) with
  | none => throw (.error "Credit lot for usage transaction is missing.")
  | some lot => do
    let explicitlyExpired := s.transactions.any (·.isExpiryOf input.workspaceId lot.id)
    let active := !explicitlyExpired && lot.openAt host input.createdAt
    let transaction := refundTransaction input index usage lot.id credits active
    if active then
      set ((s.setRemaining input.workspaceId usage.lotId
        (min lot.originalCredits (lot.remainingCredits + credits))).push transaction)
    else set (s.push transaction)
    pure transaction

/-- What is refunded of a row: all of it, or what is left of the amount asked for. -/
def refundAmount (remaining : Option Int) (credits : Int) : Int :=
  match remaining with
  | none => credits
  | some r => min credits r

/-- The loop over the USAGE rows of the operation.  `remaining` is what is left of the cumulative
amount asked for, `none` when the whole operation is refunded. -/
def refundEach (input : RefundUsageInput) :
    Option Int → Nat → List CreditLotTransaction →
      LedgerM (List CreditLotTransaction × Option Int)
  | remaining, _, [] => pure ([], remaining)
  | remaining, index, usage :: usages =>
    if remaining = some 0 then pure ([], remaining)
    else do
      let s ← get
      match s.transactions.find? (·.isRefundOf input.workspaceId usage.id) with
      | some existing => do
        let (refunds, left) ←
          refundEach input (remaining.map (· - existing.credits)) (index + 1) usages
        pure (existing :: refunds, left)
      | none => do
        let credits := refundAmount remaining usage.credits
        let refund ← refundRow host input index usage credits
        let (refunds, left) ← refundEach input (remaining.map (· - credits)) (index + 1) usages
        pure (refund :: refunds, left)

/-- The checks of a refund, and the operation it names. -/
def checkRefund (input : RefundUsageInput) : Except Thrown String := do
  assertTimestamp host input.createdAt "createdAt"
  input.credits.elim (.ok ()) fun credits => assertCredits credits "credits"
  normalizeCreditConsumeIdempotencyKey input.usageOperationId

/-- A usage is given back, row by row, up to an amount. -/
def refundUsageOperation (input : RefundUsageInput) : LedgerM (List CreditLotTransaction) := do
  let usageOperationId ← check (checkRefund host input)
  let s ← get
  let usages := s.transactions.filter (·.isUsageOf input.workspaceId usageOperationId)
  let (refunds, left) ← refundEach host input input.credits 0 usages
  match left with
  | none => pure refunds
  | some r =>
    if r ≠ 0 then
      throw (.domain .INVALID_STATE "Credit refund exceeds the original usage operation.")
    else pure refunds

/-! ### Calls -/

/-- A call of the ledger. -/
inductive LedgerCall
  | grant (input : GrantCreditsInput)
  | consume (input : ConsumeCreditsInput)
  | refundUsageOperation (input : RefundUsageInput)
  | expireLots (input : ExpireLotsInput)
  | expireSubscriptionLots (input : ExpireSubscriptionLotsInput)
  deriving DecidableEq, Repr

/-- **The ledger after a call**, returned or thrown. -/
def LedgerCall.step (s : MemoryCreditLedger) : LedgerCall → MemoryCreditLedger
  | .grant input => final (MeiyeAgent.grant host input) s
  | .consume input => final (MeiyeAgent.consume host input) s
  | .refundUsageOperation input => final (MeiyeAgent.refundUsageOperation host input) s
  | .expireLots input => final (MeiyeAgent.expireLots host input) s
  | .expireSubscriptionLots input => final (MeiyeAgent.expireSubscriptionLots input) s

/-- **A run of the ledger**: the calls of `calls` on an empty ledger. -/
def runLedger (calls : List LedgerCall) : MemoryCreditLedger :=
  runAll (LedgerCall.step host) calls .empty

end MeiyeAgent
