import MeiyeAgent.AgentSession.ConfirmationEffects
import MeiyeAgent.CreditBilling.NetUsage

/-!
# AgentSession/HoldBalance — what is held for a request is what it owes

A hold is charged when a request is created, and given back when it is rejected, expires or is
replaced by a repriced successor.  The ledger knows it by the operation of its reservation key, so
the balance is a statement about the net usage of that operation.

* `heldCredits`, `owed` — what the ledger has for a request, and what it should.
* `Balanced` — **the invariant**: every request is held what it owes, every usage is a request's.
* `Balanced.settled`, `Balanced.admitted` — a hold is given back, a request is admitted.
* `holdsBalanced_run` — **a run of fair calls is balanced**; decisions stay, and come in time.
* `not_holdsBalanced` — a request that reserves nothing leaves its predecessor's hold in place.
-/

namespace MeiyeAgent

open Effect Table Confirmations MemoryCreditLedger

variable {host : ConfirmationHost} {s s' : Confirmations}

/-! ## What is held, and what is owed -/

/-- The operation the ledger records a reservation key under. -/
def holdOperation (reservation : String) : Option String :=
  (normalizeCreditConsumeIdempotencyKey reservation).toOption

variable {op : String}

theorem holdOperation_eq_some {reservation : String} : holdOperation reservation = some op ↔
      normalizeCreditConsumeIdempotencyKey reservation = .ok op := by
  rw [holdOperation]
  cases normalizeCreditConsumeIdempotencyKey reservation <;> simp [Except.toOption]

/-- The operation a request is held under. -/
def StoredConfirmationRequest.operation (stored : StoredConfirmationRequest) : Option String :=
  holdOperation stored.request.reservationIdempotencyKey

/-- **The net usage the ledger records for a request's reservation key.** -/
def heldCredits (ledger : MemoryCreditLedger) (stored : StoredConfirmationRequest) : Int :=
  match stored.operation with
  | some op => ledger.netUsage stored.request.workspaceId op
  | none => 0

namespace Confirmations

/-- The choice a request was decided with. -/
def choice (s : Confirmations) (requestId : String) : Option ConfirmationDecision :=
  (s.getDecision requestId).map (·.decision)

/-- **What is to be held for a request**: its credits while it is pending, or confirmed and without
a successor. -/
def owed (s : Confirmations) (stored : StoredConfirmationRequest) : Int :=
  match stored.request.status with
  | .pending => stored.projection.reservedCredits
  | .expired => 0
  | .decided =>
    if s.choice stored.request.requestId = some .confirmed ∧
        (s.findSuccessor stored.request.requestId).isNone then
      stored.projection.reservedCredits
    else 0

/-- A request names this one as its predecessor. -/
def Succeeded (s : Confirmations) (id : String) : Prop :=
  ∃ k row, s.requests.get? k = some row ∧ row.request.predecessorRequestId = some id

end Confirmations

theorem findSuccessor_isNone {id : String} :
    (s.findSuccessor id).isNone = true ↔ ¬ s.Succeeded id := by
  rw [Option.isNone_iff_eq_none, findSuccessor, List.find?_eq_none]
  constructor
  · rintro h ⟨k, row, hrow, hof⟩
    exact h row (OrderedMap.mem_values_of_get? hrow) (decide_eq_true hof)
  · intro h row hrow hof
    obtain ⟨k, hk⟩ := OrderedMap.mem_values.mp hrow
    exact h ⟨k, row, hk, of_decide_eq_true hof⟩

theorem owed_eq_or (stored : StoredConfirmationRequest) :
    s.owed stored = stored.projection.reservedCredits ∨ s.owed stored = 0 := by
  rw [owed]
  split
  · exact .inl rfl
  · exact .inr rfl
  · split
    · exact .inl rfl
    · exact .inr rfl

theorem owed_of_succeeded {stored : StoredConfirmationRequest}
    (hstatus : stored.request.status = .decided) (h : s.Succeeded stored.request.requestId) :
    s.owed stored = 0 := by
  rw [owed, hstatus]
  exact if_neg fun hopen => findSuccessor_isNone.mp hopen.2 h

/-- What is owed depends on the choice and on the successors. -/
theorem owed_congr {stored : StoredConfirmationRequest}
    (hchoice : s'.choice stored.request.requestId = s.choice stored.request.requestId)
    (hsucceeded : s'.Succeeded stored.request.requestId ↔ s.Succeeded stored.request.requestId) :
    s'.owed stored = s.owed stored := by
  have hnone : (s'.findSuccessor stored.request.requestId).isNone =
      (s.findSuccessor stored.request.requestId).isNone :=
    Bool.eq_iff_iff.mpr (by rw [findSuccessor_isNone, findSuccessor_isNone, hsucceeded])
  rw [owed, owed, hchoice, hnone]

/-- **The invariant.** -/
structure Balanced (host : ConfirmationHost) (s : Confirmations) : Prop where
  keyed : Keyed host s
  kept : WellKept s.ledger
  whole : WholeRefunds s.ledger
  reserved : ∀ id row, s.requests.get? id = some row → 0 ≤ row.projection.reservedCredits
  distinct : ∀ id id' row row' op, s.requests.get? id = some row →
    s.requests.get? id' = some row' → row.request.workspaceId = row'.request.workspaceId →
      row.operation = some op → row'.operation = some op → id = id'
  used : ∀ ws op, s.ledger.usagesOf ws op ≠ [] → ∃ id row, s.requests.get? id = some row ∧
    row.request.workspaceId = ws ∧ row.operation = some op
  confirmed : ∀ id, s.Succeeded id → s.choice id = some .confirmed
  balance : ∀ id row, s.requests.get? id = some row → heldCredits s.ledger row = s.owed row

theorem Balanced.empty (authorities : Option (OrderedMap String PendingConfirmationAuthority)) :
    Balanced host (.empty authorities) where
  keyed := .empty authorities
  kept := WellKept.empty
  whole _ _ h := absurd h List.not_mem_nil
  reserved _ _ h := nomatch (OrderedMap.get?_empty).symm.trans h
  distinct _ _ _ _ _ h := nomatch (OrderedMap.get?_empty).symm.trans h
  used _ _ h := absurd rfl h
  confirmed := fun _ ⟨_, _, h, _⟩ => nomatch (OrderedMap.get?_empty).symm.trans h
  balance _ _ h := nomatch (OrderedMap.get?_empty).symm.trans h

/-! ## The ledger's calls -/

variable {ledger' : MemoryCreditLedger}

theorem refund_moves {ledger : MemoryCreditLedger} (hkept : WellKept ledger)
    (hwhole : WholeRefunds ledger) {input : RefundUsageInput} (hcredits : input.credits = none)
    {refunds : List CreditLotTransaction}
    (hrefund : refundUsageOperation host.toHost input ledger = .ok refunds ledger') :
    ∃ op, holdOperation input.usageOperationId = some op ∧
      Moves ledger ledger' input.workspaceId op 0 := by
  cases hop : normalizeCreditConsumeIdempotencyKey input.usageOperationId with
  | ok op =>
    exact ⟨op, holdOperation_eq_some.mpr hop,
      (refund_net hkept hwhole hcredits hop).of_eq_ok hrefund⟩
  | error thrown =>
    have hthrows : Wp (refundUsageOperation host.toHost input) ledger (fun _ _ => False)
        (fun _ _ => True) := by
      simp only [refundUsageOperation, wp_bind, wp_check]
      refine ⟨fun op hcheck => ?_, fun _ _ => trivial⟩
      simp only [checkRefund, bind_eq_ok] at hcheck
      obtain ⟨-, -, -, -, hcheck⟩ := hcheck
      cases hop.symm.trans hcheck
    exact (hthrows.of_eq_ok hrefund).elim

theorem consume_moves_new {ledger : MemoryCreditLedger} (hkept : WellKept ledger)
    (hwhole : WholeRefunds ledger) {input : ConsumeCreditsInput}
    (hnew : ∀ op, holdOperation input.transactionId = some op →
      ledger.usagesOf input.workspaceId op = []) {charged : List CreditLotTransaction}
    (hconsume : consume host.toHost input ledger = .ok charged ledger') :
    ∃ op, holdOperation input.transactionId = some op ∧
      Moves ledger ledger' input.workspaceId op input.credits := by
  cases hop : normalizeCreditConsumeIdempotencyKey input.transactionId with
  | ok op =>
    have hhold := holdOperation_eq_some.mpr hop
    exact ⟨op, hhold, (consume_net hkept hwhole hop (hnew op hhold)).of_eq_ok hconsume⟩
  | error thrown =>
    have hthrows : Wp (consume host.toHost input) ledger (fun _ _ => False)
        (fun _ _ => True) := by
      simp only [consume, wp_bind, wp_check]
      refine ⟨fun _ _ => ⟨fun _ _ => ⟨fun op hcheck => ?_, fun _ _ => trivial⟩,
        fun _ _ => trivial⟩, fun _ _ => trivial⟩
      cases hop.symm.trans hcheck
    exact (hthrows.of_eq_ok hconsume).elim

variable {net : Int}

/-- A call that moves another operation leaves what a request is held. -/
theorem Moves.held_eq {ledger : MemoryCreditLedger} {ws : String}
    (h : Moves ledger ledger' ws op net) {row : StoredConfirmationRequest}
    (hne : row.request.workspaceId = ws → row.operation ≠ some op) :
    heldCredits ledger' row = heldCredits ledger row := by
  rw [heldCredits, heldCredits]
  cases hof : row.operation with
  | none => rfl
  | some op' =>
    refine (h.others row.request.workspaceId op' ?_).2
    rintro ⟨hworkspace, rfl⟩
    exact hne hworkspace hof

theorem Moves.held {ledger : MemoryCreditLedger} {ws : String} (h : Moves ledger ledger' ws op net)
    {row : StoredConfirmationRequest} (hws : row.request.workspaceId = ws)
    (hop : row.operation = some op) : heldCredits ledger' row = net := by
  rw [heldCredits, hop, hws]
  exact h.net

/-- Of every row at most the status is another. -/
structure Relabels (s s' : Confirmations) : Prop where
  before : ∀ k row, s'.requests.get? k = some row →
    ∃ old status, s.requests.get? k = some old ∧ row = old.marked status
  after : ∀ k row, s.requests.get? k = some row →
    ∃ status, s'.requests.get? k = some (row.marked status)

theorem relabels_of_set {id : String} {stored : StoredConfirmationRequest}
    {status : ConfirmationStatus} (hstored : s.requests.get? id = some stored)
    (hrequests : s'.requests = s.requests.set id (stored.marked status)) : Relabels s s' where
  before k row hk := by
    rw [hrequests, OrderedMap.get?_set] at hk
    split at hk
    · next heq => exact ⟨stored, status, heq ▸ hstored, (Option.some.inj hk).symm⟩
    · exact ⟨row, row.request.status, hk, rfl⟩
  after k row hk := by
    rw [hrequests, OrderedMap.get?_set]
    split
    · next heq =>
      obtain rfl := Option.some.inj (hstored.symm.trans (heq ▸ hk))
      exact ⟨status, rfl⟩
    · exact ⟨row.request.status, hk⟩

theorem Relabels.succeeded (h : Relabels s s') {id : String} :
    s'.Succeeded id ↔ s.Succeeded id := by
  constructor
  · rintro ⟨k, row, hk, hpredecessor⟩
    obtain ⟨old, status, hold, rfl⟩ := h.before k row hk
    exact ⟨k, old, hold, hpredecessor⟩
  · rintro ⟨k, row, hk, hpredecessor⟩
    obtain ⟨status, hafter⟩ := h.after k row hk
    exact ⟨k, row.marked status, hafter, hpredecessor⟩

namespace Balanced

variable {id : String} {stored row : StoredConfirmationRequest} {ledger : MemoryCreditLedger}

/-- The other rows are held what they were. -/
theorem held_others (h : Balanced host s)
    (hmoves : Moves s.ledger ledger stored.request.workspaceId op net)
    (hop : stored.operation = some op) (hstored : s.requests.get? id = some stored) {k : String}
    (hrow : s.requests.get? k = some row) (hne : k ≠ id) :
    heldCredits ledger row = heldCredits s.ledger row :=
  hmoves.held_eq fun hws hof => hne (h.distinct k id row stored op hrow hstored hws hof hop)

/-- The ledger after a hold is given back, if there was one. -/
structure GivenBack (s : Confirmations) (stored : StoredConfirmationRequest)
    (ledger : MemoryCreditLedger) : Prop where
  moved : ledger = s.ledger ∨ ∃ op, stored.operation = some op ∧
    Moves s.ledger ledger stored.request.workspaceId op 0
  nothing : heldCredits ledger stored = 0

/-- **A hold that is given back leaves nothing held.** -/
theorem givenBack (h : Balanced host s) (hstored : s.requests.get? id = some stored)
    (hrefunds : Refunds host stored s.ledger ledger) : GivenBack s stored ledger := by
  cases hrefunds with
  | none hreserved =>
    refine ⟨.inl rfl, ?_⟩
    have hzero : stored.projection.reservedCredits = 0 :=
      le_antisymm hreserved (h.reserved id stored hstored)
    rw [h.balance id stored hstored]
    exact (owed_eq_or stored).elim (·.trans hzero) fun h => h
  | whole input refunds _ hworkspace hoperation hcredits hrefund =>
    obtain ⟨op, hop, hmoves⟩ := refund_moves h.kept h.whole hcredits hrefund
    rw [hworkspace] at hmoves
    rw [hoperation] at hop
    have hof : stored.operation = some op := hop
    exact ⟨.inr ⟨op, hof, hmoves⟩, hmoves.held rfl hof⟩

/-- **A row moves on, and its hold with it**: the others stay as they were. -/
theorem settled (h : Balanced host s) (hkeyed : Keyed host s')
    (hstored : s.requests.get? id = some stored) {status : ConfirmationStatus}
    (hrequests : s'.requests = s.requests.set id (stored.marked status))
    (hothers : ∀ k, k ≠ id → s'.choice k = s.choice k)
    (hconfirmed : s.choice id = some .confirmed → s'.choice id = some .confirmed)
    (hmoved : s'.ledger = s.ledger ∨ ∃ op, stored.operation = some op ∧
      Moves s.ledger s'.ledger stored.request.workspaceId op 0)
    (hbalance : heldCredits s'.ledger stored = s'.owed (stored.marked status)) :
    Balanced host s' := by
  have hrows := relabels_of_set hstored hrequests
  refine ⟨hkeyed, ?_, ?_, fun k row hk => ?_, fun k k' row row' op hk hk' hws hop hop' => ?_,
    fun ws op hused => ?_, fun k hk => ?_, fun k row hk => ?_⟩
  · exact hmoved.elim (fun h' => h' ▸ h.kept) fun ⟨_, _, h'⟩ => h'.kept
  · exact hmoved.elim (fun h' => h' ▸ h.whole) fun ⟨_, _, h'⟩ => h'.whole
  · obtain ⟨old, status, hold, rfl⟩ := hrows.before k row hk
    exact h.reserved k old hold
  · obtain ⟨old, status, hold, rfl⟩ := hrows.before k row hk
    obtain ⟨old', status', hold', rfl⟩ := hrows.before k' row' hk'
    exact h.distinct k k' old old' op hold hold' hws hop hop'
  · obtain ⟨k, row, hk, hof⟩ : ∃ id row, s.requests.get? id = some row ∧
        row.request.workspaceId = ws ∧ row.operation = some op := by
      rcases hmoved with hsame | ⟨op', hop', hmoves⟩
      · exact h.used ws op (hsame ▸ hused)
      · by_cases hthis : ws = stored.request.workspaceId ∧ op = op'
        · exact ⟨id, stored, hstored, hthis.1.symm, hthis.2 ▸ hop'⟩
        · exact h.used ws op ((hmoves.others ws op hthis).1 ▸ hused)
    obtain ⟨status, hafter⟩ := hrows.after k row hk
    exact ⟨k, row.marked status, hafter, hof⟩
  · have hchoice := h.confirmed k (hrows.succeeded.mp hk)
    by_cases hk' : k = id
    · exact hk' ▸ hconfirmed (hk' ▸ hchoice)
    · rw [hothers k hk', hchoice]
  · rw [hrequests, OrderedMap.get?_set] at hk
    split at hk
    · obtain rfl := Option.some.inj hk
      exact hbalance
    · next hne =>
      have hid := (h.keyed.request k row hk).1
      have howed : s'.owed row = s.owed row :=
        owed_congr (by rw [hid, hothers k hne]) hrows.succeeded
      rw [howed, ← h.balance k row hk]
      rcases hmoved with hsame | ⟨op, hop, hmoves⟩
      · rw [hsame]
      · exact h.held_others hmoves hop hstored hk hne

end Balanced

/-! ## Fair requests -/

/-- **A fair request**: its identifiers come as the schema gives them out, it names a predecessor
only when it reserves credits itself, and its reservation key is not that of another request of the
workspace with the ledger's prefix put before it or taken away. -/
def FairRequest (s : Confirmations) (input : CreateExecutionConfirmationInput) : Prop :=
  input.request.trimmed = input.request ∧
    (input.requiresReserve = false → input.request.predecessorRequestId = none) ∧
    ∀ row ∈ s.requests.values, row.request.workspaceId = input.workspaceId →
      row.request.reservationIdempotencyKey ≠ input.reservationIdempotencyKey →
        ∀ op ∈ row.operation, holdOperation input.reservationIdempotencyKey ≠ some op

instance (input : CreateExecutionConfirmationInput) : Decidable (FairRequest s input) :=
  inferInstanceAs (Decidable (_ ∧ _ ∧ _))

/-- **What admitting a request did to the ledger**: its own credits are held, those of its
predecessor no longer. -/
structure HoldCharged (s : Confirmations) (input : CreateExecutionConfirmationInput)
    (ledger : MemoryCreditLedger) : Prop where
  kept : WellKept ledger
  whole : WholeRefunds ledger
  used : ∀ ws op, ledger.usagesOf ws op ≠ [] → s.ledger.usagesOf ws op ≠ [] ∨
    (∃ k row, s.requests.get? k = some row ∧ row.request.workspaceId = ws ∧
      row.operation = some op) ∨
    ws = input.workspaceId ∧ holdOperation input.reservationIdempotencyKey = some op
  own : heldCredits ledger ⟨input.request, input.projection⟩ = input.projection.reservedCredits
  others : ∀ k row, s.requests.get? k = some row → heldCredits ledger row =
    if input.request.predecessorRequestId = some k then 0 else heldCredits s.ledger row
  confirmed : ∀ p, input.request.predecessorRequestId = some p → s.choice p = some .confirmed

theorem CreateExecutionConfirmationInput.projection_nonneg
    (input : CreateExecutionConfirmationInput) : 0 ≤ input.projection.reservedCredits := by
  rw [projection]
  dsimp only
  split
  · next hreserve => exact (of_decide_eq_true hreserve).2.2.le
  · exact le_rfl

/-- A request without a predecessor's hold names no predecessor. -/
theorem predecessor_of_replaced_none {input : CreateExecutionConfirmationInput}
    (hrefined : input.request.refined = true) (h : input.replaced = none) :
    input.request.predecessorRequestId = none := by
  have hboth := (of_decide_eq_true hrefined).1
  rw [CreateExecutionConfirmationInput.replaced] at h
  rw [CreateExecutionConfirmationInput.request] at hboth ⊢
  dsimp only at hboth ⊢
  split at h
  · exact nomatch h
  · next hneither =>
    cases hpredecessor : CreateExecutionConfirmationInput.given input.predecessorRequestId with
    | none => rfl
    | some predecessor =>
      rw [hpredecessor, Option.isSome_some, eq_comm, Option.isSome_iff_exists] at hboth
      obtain ⟨reservation, hreservation⟩ := hboth
      exact (hneither predecessor reservation hpredecessor hreservation).elim

theorem predecessor_of_replaced {input : CreateExecutionConfirmationInput}
    {predecessorId reservation : String} (h : input.replaced = some (predecessorId, reservation)) :
    input.request.predecessorRequestId = some predecessorId := by
  rw [CreateExecutionConfirmationInput.replaced] at h
  split at h
  · next predecessor _ hpredecessor _ =>
    rw [← (Prod.mk.inj (Option.some.inj h)).1]
    exact hpredecessor
  · exact nomatch h

namespace Balanced

variable {input : CreateExecutionConfirmationInput}

/-- The operation of a new key has no usage yet. -/
theorem unused (h : Balanced host s) (hfresh : ∀ k row op, s.requests.get? k = some row →
      row.request.workspaceId = input.workspaceId → row.operation = some op →
        holdOperation input.reservationIdempotencyKey ≠ some op)
    (hop : holdOperation input.reservationIdempotencyKey = some op) :
    s.ledger.usagesOf input.workspaceId op = [] := by
  by_contra hused
  obtain ⟨k, row, hk, hws, hof⟩ := h.used _ _ hused
  exact hfresh k row op hk hws hof hop

/-- A request that reserves nothing leaves the ledger as it is. -/
theorem charged_none (h : Balanced host s) (hfresh : ∀ k row op, s.requests.get? k = some row →
      row.request.workspaceId = input.workspaceId → row.operation = some op →
        holdOperation input.reservationIdempotencyKey ≠ some op)
    (hnone : input.requiresReserve = false)
    (hpredecessor : input.request.predecessorRequestId = none) : HoldCharged s input s.ledger where
  kept := h.kept
  whole := h.whole
  used _ _ := .inl
  own := by
    have hzero : input.projection.reservedCredits = 0 := by
      rw [CreateExecutionConfirmationInput.projection, hnone]
      rfl
    rw [hzero, heldCredits]
    split
    · next op hop =>
      have hnil : s.ledger.usagesOf input.workspaceId op = [] := h.unused hfresh hop
      exact (congrArg (tally _) hnil).trans (tally_nil _)
    · rfl
  others _ _ _ := by rw [if_neg (by rw [hpredecessor]; nofun)]
  confirmed _ hp := nomatch hpredecessor.symm.trans hp

/-- **The replaced hold is given back**, if there is one. -/
theorem charged_released (h : Balanced host s) (hrefined : input.request.refined = true)
    {released : MemoryCreditLedger} (hreleases : Releases host s input released) :
    WellKept released ∧ WholeRefunds released ∧
      (∀ ws op, released.usagesOf ws op = s.ledger.usagesOf ws op ∨
        ∃ k row, s.requests.get? k = some row ∧ row.request.workspaceId = ws ∧
          row.operation = some op) ∧
      (∀ k row, s.requests.get? k = some row → heldCredits released row =
        if input.request.predecessorRequestId = some k then 0 else heldCredits s.ledger row) ∧
      ∀ p, input.request.predecessorRequestId = some p → s.choice p = some .confirmed := by
  cases hreleases with
  | none hreplaced =>
    have hnone := predecessor_of_replaced_none hrefined hreplaced
    exact ⟨h.kept, h.whole, fun _ _ => .inl rfl, fun _ _ _ => by rw [if_neg (by rw [hnone]; nofun)],
      fun _ hp => nomatch hnone.symm.trans hp⟩
  | whole predecessorId predecessor refund refunds _ hreplaced hpredecessor hconfirmed hworkspace
      hoperation hcredits hrefund =>
    obtain ⟨hget, hown⟩ := getOwned_eq_some.mp hpredecessor
    have hnamed := predecessor_of_replaced hreplaced
    obtain ⟨op, hop, hmoves⟩ := refund_moves h.kept h.whole hcredits hrefund
    rw [hworkspace, ← hown] at hmoves
    rw [hoperation] at hop
    have hof : predecessor.operation = some op := hop
    refine ⟨hmoves.kept, hmoves.whole, fun ws op' => ?_, fun k row hk => ?_, fun p hp => ?_⟩
    · by_cases hthis : ws = predecessor.request.workspaceId ∧ op' = op
      · exact .inr ⟨predecessorId, predecessor, hget, hthis.1.symm, hthis.2 ▸ hof⟩
      · exact .inl (hmoves.others ws op' hthis).1
    · simp only [hnamed, Option.some.injEq]
      split
      · next heq =>
        subst heq
        obtain rfl := Option.some.inj (hget.symm.trans hk)
        exact hmoves.held rfl hof
      · next hne => exact h.held_others hmoves hof hget hk (Ne.symm hne)
    · rw [hnamed] at hp
      exact Option.some.inj hp ▸ hconfirmed

/-- **The credits of a new request are held.** -/
theorem charged_held (h : Balanced host s) (hfresh : ∀ k row op, s.requests.get? k = some row →
      row.request.workspaceId = input.workspaceId → row.operation = some op →
        holdOperation input.reservationIdempotencyKey ≠ some op)
    (hrefined : input.request.refined = true) (hreserve : input.requiresReserve = true)
    {released ledger : MemoryCreditLedger} (hreleases : Releases host s input released)
    {usage : ConsumeCreditsInput} (hworkspace : usage.workspaceId = input.workspaceId)
    (hoperation : usage.transactionId = input.reservationIdempotencyKey)
    (hcredits : usage.credits = input.creditCost) {charged : List CreditLotTransaction}
    (hconsume : consume host.toHost usage released = .ok charged ledger) :
    HoldCharged s input ledger := by
  obtain ⟨hkept, hwhole, husages, hothers, hconfirmed⟩ := h.charged_released hrefined hreleases
  have hnew (op : String) (hop : holdOperation input.reservationIdempotencyKey = some op) :
      released.usagesOf input.workspaceId op = [] := by
    rcases husages input.workspaceId op with hsame | ⟨k, row, hk, hws, hof⟩
    · exact hsame.trans (h.unused hfresh hop)
    · exact absurd hop (hfresh k row op hk hws hof)
  obtain ⟨op, hop, hmoves⟩ := consume_moves_new hkept hwhole
    (fun op hop => hworkspace ▸ hnew op (hoperation ▸ hop)) hconsume
  rw [hworkspace, hcredits] at hmoves
  rw [hoperation] at hop
  refine ⟨hmoves.kept, hmoves.whole, fun ws op' hused => ?_, ?_, fun k row hk => ?_, hconfirmed⟩
  · by_cases hthis : ws = input.workspaceId ∧ op' = op
    · exact .inr (.inr ⟨hthis.1, hthis.2 ▸ hop⟩)
    · rw [(hmoves.others ws op' hthis).1] at hused
      rcases husages ws op' with hsame | hrow
      · exact .inl (hsame ▸ hused)
      · exact .inr (.inl hrow)
  · have hreserved : input.projection.reservedCredits = input.creditCost := if_pos hreserve
    rw [hreserved]
    exact hmoves.held rfl hop
  · rw [← hothers k row hk]
    exact hmoves.held_eq fun hws hof => hfresh k row op hk hws hof hop

end Balanced

namespace Balanced

variable {stored : StoredConfirmationRequest} {ledger : MemoryCreditLedger}

/-- What a row is owed once a request is admitted: its hold is free if it is the predecessor. -/
theorem owed_admitted (h : Balanced host s) {input : CreateExecutionConfirmationInput}
    (authorities : Option (OrderedMap String PendingConfirmationAuthority))
    (hnew : s.requests.get? input.request.requestId = none) (hcharged : HoldCharged s input ledger)
    {k : String} {row : StoredConfirmationRequest} (hk : s.requests.get? k = some row) :
    owed { s with
      requests := s.requests.set input.request.requestId ⟨input.request, input.projection⟩
      ledger, authorities } row =
        if input.request.predecessorRequestId = some k then 0 else s.owed row := by
  have hid := (h.keyed.request k row hk).1
  split
  · next hnamed =>
    -- the predecessor is decided, and has its successor now
    have hchoice := hcharged.confirmed k hnamed
    have hstatus : row.request.status = .decided := (mem_decided h.keyed hk).mpr (by
      rw [choice, Option.map_eq_some_iff] at hchoice
      obtain ⟨decision, hdecision, -⟩ := hchoice
      rw [hdecision]
      rfl)
    refine owed_of_succeeded hstatus ?_
    exact ⟨_, ⟨input.request, input.projection⟩, OrderedMap.get?_set_self, hid ▸ hnamed⟩
  · next hnot =>
    refine owed_congr rfl ⟨?_, ?_⟩
    · rintro ⟨k', row', hk', hpredecessor⟩
      rcases OrderedMap.get?_set_eq_some hk' with ⟨rfl, rfl⟩ | ⟨-, hk'⟩
      · exact absurd (hid ▸ hpredecessor) hnot
      · exact ⟨k', row', hk', hpredecessor⟩
    · rintro ⟨k', row', hk', hpredecessor⟩
      exact ⟨k', row', OrderedMap.get?_set_of_none hnew hk', hpredecessor⟩

/-- **A fair request is admitted in balance.** -/
theorem admitted (h : Balanced host s) {input : CreateExecutionConfirmationInput}
    {authorities : Option (OrderedMap String PendingConfirmationAuthority)} (hkeyed : Keyed host
      { s with requests := s.requests.set stored.request.requestId stored, ledger, authorities })
    (hrequest : stored.request = input.request) (hprojection : stored.projection = input.projection)
    (hnew : s.requests.get? stored.request.requestId = none)
    (hfresh : ∀ k row op, s.requests.get? k = some row →
      row.request.workspaceId = input.workspaceId → row.operation = some op →
        holdOperation input.reservationIdempotencyKey ≠ some op)
    (hcharged : HoldCharged s input ledger) : Balanced host
      { s with requests := s.requests.set stored.request.requestId stored, ledger, authorities } := by
  obtain ⟨request, projection⟩ := stored
  obtain rfl : request = input.request := hrequest
  obtain rfl : projection = input.projection := hprojection
  have hnone : s.choice input.request.requestId = none := by
    rw [choice, h.keyed.getDecision_none fun row hrow => by cases hnew.symm.trans hrow]
    rfl
  refine ⟨hkeyed, hcharged.kept, hcharged.whole, fun k row hk => ?_,
    fun k k' row row' op hk hk' hws hop hop' => ?_, fun ws op hused => ?_, fun k hk => ?_,
    fun k row hk => ?_⟩
  · rcases OrderedMap.get?_set_eq_some hk with ⟨-, rfl⟩ | ⟨-, hk⟩
    · exact input.projection_nonneg
    · exact h.reserved k row hk
  · rcases OrderedMap.get?_set_eq_some hk with ⟨rfl, rfl⟩ | ⟨-, hk⟩
    · rcases OrderedMap.get?_set_eq_some hk' with ⟨rfl, rfl⟩ | ⟨-, hk'⟩
      · rfl
      · exact absurd hop (hfresh k' row' op hk' hws.symm hop')
    · rcases OrderedMap.get?_set_eq_some hk' with ⟨rfl, rfl⟩ | ⟨-, hk'⟩
      · exact absurd hop' (hfresh k row op hk hws hop)
      · exact h.distinct k k' row row' op hk hk' hws hop hop'
  · have hof : (∃ k row, s.requests.get? k = some row ∧ row.request.workspaceId = ws ∧
        row.operation = some op) ∨
        ws = input.workspaceId ∧ holdOperation input.reservationIdempotencyKey = some op := by
      rcases hcharged.used ws op hused with hbefore | hrow | hown
      · exact .inl (h.used ws op hbefore)
      · exact .inl hrow
      · exact .inr hown
    rcases hof with ⟨k, row, hk, hof⟩ | ⟨rfl, hop⟩
    · exact ⟨k, row, OrderedMap.get?_set_of_none hnew hk, hof⟩
    · exact ⟨_, ⟨input.request, input.projection⟩, OrderedMap.get?_set_self, rfl, hop⟩
  · obtain ⟨k', row, hk', hpredecessor⟩ := hk
    rcases OrderedMap.get?_set_eq_some hk' with ⟨rfl, rfl⟩ | ⟨-, hk'⟩
    · exact hcharged.confirmed k hpredecessor
    · exact h.confirmed k ⟨k', row, hk', hpredecessor⟩
  · rcases OrderedMap.get?_set_eq_some hk with ⟨rfl, rfl⟩ | ⟨hne, hk⟩
    · exact hcharged.own
    · rw [hcharged.others k row hk, h.owed_admitted authorities hnew hcharged hk,
        h.balance k row hk]

/-- The ledger's own upkeep leaves the balance. -/
theorem upkept (h : Balanced host s) (hkept : WellKept ledger) (hsame : SameUsage s.ledger ledger)
    (authorities : Option (OrderedMap String PendingConfirmationAuthority)) :
    Balanced host { s with ledger, authorities } where
  keyed := h.keyed.others ledger authorities
  kept := hkept
  whole := hsame.whole h.whole
  reserved := h.reserved
  distinct := h.distinct
  used ws op hused := h.used ws op (hsame.usagesOf ws op ▸ hused)
  confirmed := h.confirmed
  balance id row hrow := by
    have hheld : heldCredits ledger row = heldCredits s.ledger row := by
      rw [heldCredits, heldCredits]
      split
      · exact hsame.netUsage _ _
      · rfl
    exact hheld.trans (h.balance id row hrow)

theorem sameUsage_upkeep (upkeep : CreditUpkeep) :
    SameUsage s.ledger (upkeep.call.step host.toHost s.ledger) := by
  cases upkeep with
  | grant input => exact wp_final.mp (sameUsage_grant input)
  | expireLots input => exact wp_final.mp (sameUsage_expireLots input)
  | expireSubscriptionLots input => exact wp_final.mp (sameUsage_expireSubscriptionLots input)

variable {id : String}

/-- **A hold that ran out.** -/
theorem ranOut (h : Balanced host s) (hstored : s.requests.get? id = some stored)
    (hkeyed : Keyed host ((s.withLedger ledger).saveRequest id (stored.marked .expired)))
    (hrefunds : Refunds host stored s.ledger ledger) :
    Balanced host ((s.withLedger ledger).saveRequest id (stored.marked .expired)) :=
  have hback := h.givenBack hstored hrefunds
  h.settled hkeyed hstored rfl (fun _ _ => rfl) (fun hconfirmed => hconfirmed) hback.moved
    hback.nothing

/-- A hold that was given back is given back again. -/
theorem refunded (h : Balanced host s) (hstored : s.requests.get? id = some stored)
    (hclosed : stored.request.status = .expired ∨ s.choice id = some .rejected)
    (hrefunds : Refunds host stored s.ledger ledger) : Balanced host (s.withLedger ledger) := by
  have hback := h.givenBack hstored hrefunds
  have hrequests : (s.withLedger ledger).requests =
      s.requests.set id (stored.marked stored.request.status) :=
    (OrderedMap.set_get? hstored).symm
  refine h.settled (h.keyed.others ledger s.authorities) hstored hrequests (fun _ _ => rfl)
    (fun hconfirmed => hconfirmed) hback.moved (hback.nothing.trans (Eq.symm ?_))
  rcases hclosed with hexpired | hrejected
  · show owed _ stored = 0
    rw [owed, hexpired]
  · have hdecided : stored.request.status = .decided := (mem_decided h.keyed hstored).mpr (by
      rw [choice, Option.map_eq_some_iff] at hrejected
      obtain ⟨decision, hdecision, -⟩ := hrejected
      rw [hdecision]
      rfl)
    show owed _ stored = 0
    rw [owed, hdecided]
    refine if_neg fun hopen => ?_
    rw [(h.keyed.request id stored hstored).1] at hopen
    exact nomatch Option.some.inj (hrejected.symm.trans hopen.1)

/-- **A decision is made in balance**: a confirmed hold stays, a rejected one is given back. -/
theorem decided (h : Balanced host s) {made : PlanConfirmationDecision}
    (hstored : s.requests.get? id = some stored) (hpending : stored.request.status = .pending)
    (hrequest : made.requestId = id) (hnew : s.decisionsById.get? made.decisionId = none)
    (hkeyed : Keyed host ((s.withDecision id stored made).withLedger ledger))
    (hrefunds : made.decision = .confirmed ∧ ledger = s.ledger ∨
      made.decision = .rejected ∧ Refunds host stored s.ledger ledger) :
    Balanced host ((s.withDecision id stored made).withLedger ledger) := by
  have hnone : s.getDecision id = none := h.keyed.getDecision_none fun row hrow => by
    rw [Option.some.inj (hrow.symm.trans hstored), hpending]
    nofun
  have hchoice (k : String) : ((s.withDecision id stored made).withLedger ledger).choice k =
      if k = id then some made.decision else s.choice k := by
    have hdecision : (s.withDecision id stored made).getDecision k = _ :=
      getDecision_withDecision h.keyed hnew k
    have hsame : ((s.withDecision id stored made).withLedger ledger).getDecision k =
        (s.withDecision id stored made).getDecision k := rfl
    rw [choice, hsame, hdecision, hrequest, choice]
    split
    · rfl
    · rfl
  have hid : stored.request.requestId = id := (h.keyed.request id stored hstored).1
  have hopen : ¬ s.Succeeded id := fun hsucceeded => by
    have hconfirmed := h.confirmed id hsucceeded
    rw [choice, hnone] at hconfirmed
    exact nomatch hconfirmed
  have hrows : Relabels s ((s.withDecision id stored made).withLedger ledger) :=
    relabels_of_set hstored rfl
  refine h.settled hkeyed hstored rfl (fun k hne => by rw [hchoice, if_neg hne])
    (fun hconfirmed => ?_) ?_ ?_
  · rw [choice, hnone] at hconfirmed
    exact nomatch hconfirmed
  · rcases hrefunds with ⟨-, rfl⟩ | ⟨-, hrefunds⟩
    · exact .inl rfl
    · exact (h.givenBack hstored hrefunds).moved
  · rcases hrefunds with ⟨hconfirmed, rfl⟩ | ⟨hrejected, hrefunds⟩
    · have howed : owed ((s.withDecision id stored made).withLedger s.ledger)
          (stored.marked .decided) = stored.projection.reservedCredits := by
        refine if_pos ⟨?_, ?_⟩
        · exact (congrArg _ hid).trans ((hchoice id).trans (by rw [if_pos rfl, hconfirmed]))
        · rw [findSuccessor_isNone, hrows.succeeded]
          exact hid ▸ hopen
      have hbefore : s.owed stored = stored.projection.reservedCredits := by rw [owed, hpending]
      rw [howed, ← hbefore]
      exact h.balance id stored hstored
    · refine (h.givenBack hstored hrefunds).nothing.trans (Eq.symm ?_)
      refine if_neg fun hopen => ?_
      have hboth := hopen.1
      rw [show (stored.marked .decided).request.requestId = id from hid, hchoice, if_pos rfl,
        hrejected] at hboth
      exact nomatch hboth

end Balanced

/-- The side condition of a run. -/
def FairCall (s : Confirmations) : ConfirmationCall → Prop
  | .createRequest input => FairRequest s input
  | _ => True

instance : ∀ (s : Confirmations) (call : ConfirmationCall), Decidable (FairCall s call)
  | s, .createRequest input => inferInstanceAs (Decidable (FairRequest s input))
  | _, .decide _ _ => .isTrue trivial
  | _, .expire _ => .isTrue trivial
  | _, .reconcile _ _ => .isTrue trivial
  | _, .upkeep _ => .isTrue trivial

/-- **Every fair call keeps the balance.** -/
theorem Balanced.step (h : Balanced host s) {call : ConfirmationCall} (hfair : FairCall s call) :
    Balanced host (s.step host call) := by
  have hkeyed := keyed_step h.keyed call
  have heffect := callEffect h.keyed call
  generalize s.step host call = s' at hkeyed heffect
  cases heffect with
  | kept _ authorities => exact h.upkept h.kept .refl authorities
  | upkeep upkeep =>
    exact h.upkept (h.kept.step upkeep.call) (sameUsage_upkeep upkeep) s.authorities
  | admitted input stored ledger authorities hparse hprojection hnew hunique hreserves =>
    obtain ⟨htrimmed, hpredecessor, hfresh⟩ := hfair
    obtain ⟨hvalid, hrequest⟩ := parseConfirmationRequest_eq_ok.mp hparse
    have hrequest : stored.request = input.request := hrequest.symm.trans htrimmed
    have hrefined : input.request.refined = true := by
      rw [htrimmed] at hvalid
      have hparts := of_decide_eq_true hvalid
      exact hparts.2.2.2.2.2.2.2.2.2.2.2.2.2.1
    have hfresh (k : String) (row : StoredConfirmationRequest) (op : String)
        (hk : s.requests.get? k = some row) (hws : row.request.workspaceId = input.workspaceId)
        (hop : row.operation = some op) :
        holdOperation input.reservationIdempotencyKey ≠ some op := by
      have hmem := OrderedMap.mem_values_of_get? hk
      refine hfresh row hmem hws (fun hsame => hunique row hmem ?_) op hop
      rw [hrequest]
      exact hsame
    refine h.admitted hkeyed hrequest hprojection hnew hfresh ?_
    cases hreserves with
    | none hnone => exact h.charged_none hfresh hnone (hpredecessor hnone)
    | held released _ usage charged hreserve hreleases hws hop hcredits hconsume =>
      exact h.charged_held hfresh hrefined hreserve hreleases hws hop hcredits hconsume
  | twin _ _ _ huntrimmed => exact absurd hfair.1 huntrimmed
  | ranOut _ id stored ledger hstored hpending hrefunds => exact h.ranOut hstored hkeyed hrefunds
  | refunded _ id stored ledger hstored hclosed hrefunds =>
    exact h.refunded hstored hclosed hrefunds
  | decided input now stored made ledger hstored hpending hintime hparse hrequest hnew hrefunds =>
    exact h.decided hstored hpending hrequest hnew hkeyed hrefunds

/-! ## Runs -/

/-- **Rows only become decided in time.** -/
theorem CallEffect.decidedInTime {call : ConfirmationCall} (h : CallEffect host s call s')
    {id : String} {row : StoredConfirmationRequest} (hrow : s'.requests.get? id = some row)
    (hdecided : row.request.status = .decided) : s.requests.get? id = some row ∨
      ∃ stored input now, s.requests.get? id = some stored ∧ call = .decide input now ∧
        holdRunOut host (isoText now) stored = false := by
  cases h with
  | kept => exact .inl hrow
  | upkeep => exact .inl hrow
  | twin => exact .inl hrow
  | refunded => exact .inl hrow
  | admitted input stored ledger authorities hparse =>
    rcases OrderedMap.get?_set_eq_some hrow with ⟨-, rfl⟩ | ⟨-, hrow⟩
    · cases (status_of_parse hparse).symm.trans hdecided
    · exact .inl hrow
  | ranOut _ k stored ledger hstored hpending =>
    rcases OrderedMap.get?_set_eq_some hrow with ⟨-, rfl⟩ | ⟨-, hrow⟩
    · cases hdecided
    · exact .inl hrow
  | decided input now stored made ledger hstored hpending hintime =>
    rw [OrderedMap.get?_set] at hrow
    split at hrow
    · next heq => exact .inr ⟨stored, input, now, heq ▸ hstored, rfl, hintime⟩
    · exact .inl hrow

/-- Decisions stay over a run, and so do expired rows. -/
theorem stays_run (calls : List ConfirmationCall) (hkeyed : Keyed host s) :
    (∀ id decision, s.getDecision id = some decision →
      (runAll (step host) calls s).getDecision id = some decision) ∧
    ∀ id row, s.requests.get? id = some row → row.request.status = .expired →
      (runAll (step host) calls s).requests.get? id = some row := by
  refine (runAll_invariant (fun s' => Keyed host s' ∧
    (∀ id decision, s.getDecision id = some decision → s'.getDecision id = some decision) ∧
    ∀ id row, s.requests.get? id = some row → row.request.status = .expired →
      s'.requests.get? id = some row) (fun s' call h => ?_) calls
    ⟨hkeyed, fun _ _ h => h, fun _ _ h _ => h⟩).2
  obtain ⟨hkeyed', hdecisions, hexpired⟩ := h
  have hadvances := advances_step hkeyed' call
  refine ⟨keyed_step hkeyed' call, fun id decision hid =>
    hadvances.decision id decision (hdecisions id decision hid), fun id row hrow hstatus => ?_⟩
  obtain ⟨status, hafter, hmoves⟩ := hadvances.row id row (hexpired id row hrow hstatus)
  rw [hafter]
  cases hmoves with
  | same => rfl
  | expires _ hpending => exact nomatch hpending.symm.trans hstatus
  | decides input now hpending hintime => exact nomatch hpending.symm.trans hstatus

/-- **Holds are in balance, and decisions final**: every request is held what it owes; it has one
decision, which stays; an expired request stays expired, and none becomes decided once its hold has
run out. -/
structure HoldsBalanced (host : ConfirmationHost) (s : Confirmations) : Prop where
  balance : ∀ id row, s.requests.get? id = some row → heldCredits s.ledger row = s.owed row
  oneDecision : ∀ id id' decision decision', s.decisionsById.get? id = some decision →
    s.decisionsById.get? id' = some decision' → decision.requestId = decision'.requestId →
      decision = decision'
  decisionStays : ∀ calls id decision, s.getDecision id = some decision →
    (runAll (step host) calls s).getDecision id = some decision
  expiredStays : ∀ calls id row, s.requests.get? id = some row → row.request.status = .expired →
    (runAll (step host) calls s).requests.get? id = some row
  inTime : ∀ call id row, (s.step host call).requests.get? id = some row →
    row.request.status = .decided → s.requests.get? id = some row ∨
      ∃ stored input now, s.requests.get? id = some stored ∧ call = .decide input now ∧
        holdRunOut host (isoText now) stored = false

theorem Balanced.holdsBalanced (h : Balanced host s) : HoldsBalanced host s where
  balance := h.balance
  oneDecision id id' decision decision' hid hid' hsame := by
    have hfirst := (h.keyed.decision id decision hid).2.1
    have hsecond := (h.keyed.decision id' decision' hid').2.1
    rw [hsame, hsecond] at hfirst
    obtain rfl := Option.some.inj hfirst
    exact Option.some.inj (hid.symm.trans hid')
  decisionStays calls := (stays_run calls h.keyed).1
  expiredStays calls := (stays_run calls h.keyed).2
  inTime call _ _ := (callEffect h.keyed call).decidedInTime

/-- **A run of fair calls leaves the holds in balance.** -/
theorem holdsBalanced_run (calls : List ConfirmationCall)
    (authorities : Option (OrderedMap String PendingConfirmationAuthority))
    (h : Admits (step host) FairCall calls (.empty authorities)) :
    HoldsBalanced host (runAll (step host) calls (.empty authorities)) :=
  (runAll_induct (Balanced host) (fun _ _ hbalanced hfair => hbalanced.step hfair) calls
    (.empty authorities) h).holdsBalanced

/-! ### Sample runs -/

/-- A request of 5 credits of the shop. -/
def paidRequest (requestId reservation : String) : CreateExecutionConfirmationInput where
  requestId := requestId
  workspaceId := "shop"
  planId := "plan"
  planRevision := 1
  snapshotHash := "hash"
  quoteRef := ⟨"quote", .number 1⟩
  reservationIdempotencyKey := reservation
  createdAt := "2026-01-01T00:00:00.000Z"
  holdExpiresAt := "2026-01-02T00:00:00.000Z"
  actorId := "owner"
  creditCost := 5
  failureRefundsCredits := true

/-- Credits are granted, a request is held and confirmed, and a repriced successor rejected. -/
def repricedCalls : List ConfirmationCall :=
  [.upkeep (.grant {
      id := "lot"
      workspaceId := "shop"
      credits := 20
      expirationDate := some "2027-01-01T00:00:00.000Z"
      transactionType := .PURCHASE_PACKAGE
      createdAt := "2026-01-01T00:00:00.000Z" }),
    .createRequest (paidRequest "first" "hold"),
    .decide ⟨"yes", "first", "shop", "owner", .confirmed⟩ requestDay,
    .createRequest { paidRequest "second" "repriced" with
      planRevision := 2
      predecessorRequestId := some "first"
      replacesReservationIdempotencyKey := some "hold"
      creditCost := 7 },
    .decide ⟨"no", "second", "shop", "owner", .rejected⟩ requestDay]

theorem holdsBalanced_repriced : HoldsBalanced plainConfirmationHost
    (runAll (step plainConfirmationHost) repricedCalls (.empty none)) :=
  holdsBalanced_run repricedCalls none (by decide +kernel)

/-- The successor of a confirmed hold is a plan that reserves nothing. -/
def unpaidCalls : List ConfirmationCall :=
  repricedCalls.take 3 ++ [.createRequest { paidRequest "second" "repriced" with
    planRevision := 2
    predecessorRequestId := some "first"
    replacesReservationIdempotencyKey := some "hold"
    creditCost := 0
    campaignPlanRef := some ⟨"campaign", .number 1⟩
    workOrdinal := some 1
    approvalScope := some .plan_only }]

/-- **A successor that reserves nothing leaves its predecessor's credits held**, though it has
replaced it. -/
theorem not_holdsBalanced : ¬ ∀ (calls : List ConfirmationCall)
    (authorities : Option (OrderedMap String PendingConfirmationAuthority)),
    HoldsBalanced plainConfirmationHost
      (runAll (step plainConfirmationHost) calls (.empty authorities)) := by
  intro h
  -- the predecessor is still held 5 credits, and owes none
  have hheld : ((runAll (step plainConfirmationHost) unpaidCalls (.empty none)).requests.get?
      "first").any (fun row => decide (heldCredits
        (runAll (step plainConfirmationHost) unpaidCalls (.empty none)).ledger row ≠
          (runAll (step plainConfirmationHost) unpaidCalls (.empty none)).owed row)) = true := by
    decide +kernel
  obtain ⟨row, hrow, hunbalanced⟩ := Option.any_eq_true _ _ |>.mp hheld
  exact of_decide_eq_true hunbalanced ((h unpaidCalls none).balance "first" row hrow)

end MeiyeAgent
