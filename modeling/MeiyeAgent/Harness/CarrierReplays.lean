import MeiyeAgent.Harness.CompensationRuns
import MeiyeAgent.Harness.SettledOnce

/-!
# Harness/CarrierReplays — when a carrier's receipt may be recorded again

A receipt is known by the digest of the object it was asked with.  The digest leaves the settlement
key out, as the queue adds it; but the queue's task also has its action and its attempts, and its
payload comes back from `jsonb` in an order of its own.  So the facts are one thing, and the text
the digest is taken of another.

* `WrittenAlike` — the retry of an attempt writes the text the attempt wrote.
* `replays_iff` — **exactly then the retry is accepted**, and other facts refused.
-/

namespace MeiyeAgent

open Effect

variable {host : CarrierHost} {store store' : CarrierCoordinator} {k : WorkKey}

/-! ## Attempts -/

/-- An attempt to record a carrier, directly or as a task's. -/
structure Attempt (host : CarrierHost) where
  now : Int
  action : CarrierTerminalAction
  object : SettlementObject host.toSettlementHost

namespace Attempt

variable {attempt first later : Attempt host}

def event (attempt : Attempt host) : CarrierEvent host :=
  ⟨attempt.now, .recordCarrierTerminal attempt.action attempt.object⟩

def record (attempt : Attempt host) :
    EStateM BillingThrown CarrierCoordinator (Option ReadyWorkSettlement) :=
  CarrierCoordinator.recordCarrierTerminal host attempt.now attempt.action attempt.object

/-- What the fingerprint is the digest of. -/
def text (attempt : Attempt host) : Json :=
  .object [("action", .text attempt.action.name), ("settlement", .object attempt.object.body)]

def fingerprint (attempt : Attempt host) : String :=
  carrierReceiptFingerprint attempt.action attempt.object

/-- The work the attempt belongs to, and its receipt. -/
def workKey (attempt : Attempt host) (facts : CarrierFacts) : WorkKey :=
  (attempt.object.settlement.workspaceId, facts.aggregateKey)

def receiptKey (attempt : Attempt host) (facts : CarrierFacts) : WorkKey :=
  (attempt.object.settlement.workspaceId, facts.receiptKey)

end Attempt

/-- The row has the facts of the settlement. -/
structure Verified (input : HarnessBillingSettlementInput) (facts : CarrierFacts)
    (row : WorkSettlementRow) : Prop where
  billingTaskId : row.billingTaskId = input.billingTaskId
  workId : row.workId = input.billingIdentity.workId
  quoteId : row.quoteId = input.quoteId
  quoteRevision : row.quoteRevision = input.quoteRevision
  reservationId : row.reservationId = facts.reservationId
  carrierUnitIds : sortTexts row.carrierUnitIds = facts.carrierUnitIds

/-- The receipt is that of the attempt. -/
structure ReceiptMatches (attempt : Attempt host) (facts : CarrierFacts) (row : CarrierReceiptRow) : Prop where
  action : row.action = attempt.action
  fingerprint : row.fingerprint = attempt.fingerprint
  aggregateKey : row.aggregateKey = facts.aggregateKey
  carrierUnitId : row.carrierUnitId = facts.carrierUnitId

namespace CarrierCoordinator

/-- **The attempt was accepted**: its work has its facts, and its receipt stands. -/
structure Accepted (attempt : Attempt host) (facts : CarrierFacts) (store : CarrierCoordinator) :
    Prop where
  work : ∃ row, store.works.get? (attempt.workKey facts) = some row ∧
    Verified attempt.object.settlement facts row
  receipt : ∃ row, store.receipts.get? (attempt.receiptKey facts) = some row ∧
    ReceiptMatches attempt facts row

/-- A work whose receipts are being collected does not have them all. -/
def Incomplete (host : CarrierHost) (store : CarrierCoordinator) (k : WorkKey) : Prop :=
  ∀ row, store.works.get? k = some row → row.status = .collecting →
    reduceCarrierReceiptsForWork k.2 (sortTexts row.carrierUnitIds) (store.receiptsOf host k) =
      .ok none

variable {attempt : Attempt host} {facts : CarrierFacts}

theorem receiptsOf_congr (h : store'.receipts = store.receipts) (k : WorkKey) :
    store'.receiptsOf host k = store.receiptsOf host k := by
  rw [receiptsOf, receiptsOf, h]

variable {key : WorkKey}

/-- A receipt inserted for one work is not of another. -/
theorem receiptsOf_saveReceipt {row : CarrierReceiptRow} (hnone : store.receipts.get? key = none)
    (hk : k ≠ (key.1, row.aggregateKey)) :
    (store.saveReceipt key row).receiptsOf host k = store.receiptsOf host k := by
  have hother : ¬ (key.1 = k.1 ∧ row.aggregateKey = k.2) := fun h => hk (Prod.ext h.1.symm h.2.symm)
  rw [receiptsOf, receiptsOf, saveReceipt]
  dsimp only
  rw [OrderedMap.entries_set_of_none hnone, List.filter_append, List.filter_cons_of_neg (by simpa using hother),
    List.filter_nil, List.append_nil]

theorem insertOrVerifyAggregate_ok {input : HarnessBillingSettlementInput}
    (hsorted : sortTexts facts.carrierUnitIds = facts.carrierUnitIds) :
    Wp (insertOrVerifyAggregate input facts) store (fun _ store' =>
      (∃ row, store'.works.get? (input.workspaceId, facts.aggregateKey) = some row ∧
        Verified input facts row) ∧
      (∀ k, k ≠ (input.workspaceId, facts.aggregateKey) →
        store'.works.get? k = store.works.get? k) ∧
      store'.receipts = store.receipts) (fun _ _ => True) := by
  simp only [insertOrVerifyAggregate, wp_bind, wp_get]
  split
  · simp only [wp_set]
    exact ⟨⟨_, OrderedMap.get?_set_self, ⟨rfl, rfl, rfl, rfl, rfl, hsorted⟩⟩,
      fun k hk => OrderedMap.get?_set_ne hk, rfl⟩
  · next row hrow =>
    simp only [wp_ite, wp_throw, wp_pure]
    refine ⟨fun _ => trivial, fun hsame => ⟨⟨row, hrow, ?_⟩, fun _ _ => trivial, trivial⟩⟩
    simp only [not_or, not_not] at hsame
    obtain ⟨h1, h2, h3, h4, h5, h6⟩ := hsame
    exact ⟨h1, h2, h3, h4, h5, h6⟩

theorem insertOrVerifyReceipt_ok :
    Wp (insertOrVerifyReceipt attempt.action attempt.object.settlement facts attempt.fingerprint)
      store (fun _ store' => store'.works = store.works ∧
        (∃ row, store'.receipts.get? (attempt.receiptKey facts) = some row ∧
          ReceiptMatches attempt facts row) ∧
        ∀ k, k ≠ attempt.workKey facts → store'.receiptsOf host k = store.receiptsOf host k)
      (fun _ _ => True) := by
  simp only [insertOrVerifyReceipt, wp_bind, wp_get]
  split
  · next hnone =>
    simp only [wp_set]
    exact ⟨rfl, ⟨_, OrderedMap.get?_set_self, ⟨rfl, rfl, rfl, rfl⟩⟩, fun k hk =>
      receiptsOf_saveReceipt hnone hk⟩
  · next row hrow =>
    simp only [wp_ite, wp_throw, wp_pure]
    refine ⟨fun _ => trivial, fun hsame => ⟨trivial, ⟨row, hrow, ?_⟩, fun _ _ => trivial⟩⟩
    simp only [not_or, not_not] at hsame
    exact ⟨hsame.1, hsame.2.1, hsame.2.2.1, hsame.2.2.2⟩

/-! ## What a run keeps -/

/-- An event leaves the facts of a work and the receipts there are. -/
theorem accepted_step (h : Accepted attempt facts store) (event : CarrierEvent host) :
    Accepted attempt facts (store.step event) := by
  obtain ⟨⟨row, hrow, hverified⟩, receipt, hreceipt, hmatches⟩ := h
  have hwork := (changes store event).work (attempt.workKey facts)
  have hkept := (changes store event).receipt (attempt.receiptKey facts)
  rw [hrow] at hwork
  rw [hreceipt] at hkept
  generalize hnew : (store.step event).works.get? (attempt.workKey facts) = new at hwork
  generalize store.outbox.get? (attempt.workKey facts) = outbox at hwork
  generalize (store.step event).outbox.get? (attempt.workKey facts) = outbox' at hwork
  generalize hreceipt' : (store.step event).receipts.get? (attempt.receiptKey facts) = receipt'
    at hkept
  refine ⟨?_, ?_⟩
  · obtain ⟨h1, h2, h3, h4, h5, h6⟩ := hverified
    cases hwork with
    | kept | completed | claimed | failed => exact ⟨row, hnew, ⟨h1, h2, h3, h4, h5, h6⟩⟩
    | readied _ _ row' ready _ _ _ hsame =>
      obtain rfl := hsame row rfl
      exact ⟨_, hnew, ⟨h1, h2, h3, h4, h5, h6⟩⟩
    | settled => exact ⟨_, hnew, ⟨h1, h2, h3, h4, h5, h6⟩⟩
  · cases hkept with
    | kept => exact ⟨receipt, hreceipt', hmatches⟩

/-- A work whose row and receipts are as they were is as incomplete as it was. -/
theorem Incomplete.congr (h : Incomplete host store k)
    (hwork : store'.works.get? k = store.works.get? k)
    (hreceipts : store'.receiptsOf host k = store.receiptsOf host k) : Incomplete host store' k := by
  intro row hrow hstatus
  rw [hreceipts]
  exact h row (hwork ▸ hrow) hstatus


variable {now : Int}

/-- Recording a receipt leaves its work ready, or settled, or without all its receipts. -/
theorem settleIfComplete_ok {row : WorkSettlementRow} (hrow : store.works.get? key = some row)
    (hunits : sortTexts row.carrierUnitIds = facts.carrierUnitIds)
    (hkey : key.2 = facts.aggregateKey) :
    Wp (settleIfComplete host now key facts) store (fun _ store' =>
      store'.receipts = store.receipts ∧ Incomplete host store' key ∧
        (∀ k, k ≠ key → store'.works.get? k = store.works.get? k) ∧
        ∃ status payload, store'.works.get? key = some { row with status, payload })
      (fun _ _ => True) := by
  simp only [settleIfComplete, wp_bind, wp_get, hrow, wp_ite, wp_pure]
  refine ⟨fun hsettled => ⟨trivial, ?_, fun _ _ => trivial, row.status, row.payload, rfl⟩,
    fun _ => ?_⟩
  · intro row' hrow' hcollecting
    obtain rfl := Option.some.inj (hrow.symm.trans hrow')
    cases hsettled.symm.trans hcollecting
  · split
    · next payload hpayload =>
      rw [wp_pure]
      refine ⟨rfl, fun row' hrow' hcollecting => ?_, fun _ _ => rfl, row.status, row.payload, hrow⟩
      obtain rfl := Option.some.inj (hrow.symm.trans hrow')
      obtain ⟨-, hready⟩ := Option.filter_eq_some_iff.mp hpayload
      cases (of_decide_eq_true hready).symm.trans hcollecting
    · simp only [wp_bind, wp_check]
      refine ⟨fun reduced hreduced => ?_, fun _ _ => trivial⟩
      split
      · rw [wp_pure]
        refine ⟨rfl, fun row' hrow' _ => ?_, fun _ _ => rfl, row.status, row.payload, hrow⟩
        obtain rfl := Option.some.inj (hrow.symm.trans hrow')
        rw [hkey, hunits]
        exact hreduced
      · next ready =>
        simp only [wp_bind, wp_set, wp_pure]
        obtain ⟨hworks, hreceipts, -, -⟩ := saveReady_rows store key now row ready
        refine ⟨hreceipts, fun row' hrow' hcollecting => ?_, fun k hk => ?_, .ready, some ready, ?_⟩
        · rw [hworks, OrderedMap.get?_set_self] at hrow'
          rw [← Option.some.inj hrow'] at hcollecting
          cases hcollecting
        · rw [hworks, OrderedMap.get?_set_ne hk]
        · rw [hworks, OrderedMap.get?_set_self]

/-- **A recorded attempt is accepted**, and no work is complete unnoticed. -/
theorem record_ok (hfacts : carrierFacts attempt.object.settlement = .ok facts)
    (h : ∀ k, Incomplete host store k) :
    Wp attempt.record store (fun _ store' => Accepted attempt facts store' ∧
      ∀ k, Incomplete host store' k) (fun _ store' => store' = store) := by
  rw [Attempt.record, recordCarrierTerminal, wp_bind, wp_check]
  refine ⟨fun found hfound => ?_, fun _ _ => rfl⟩
  obtain rfl := Except.ok.inj (hfacts.symm.trans hfound)
  rw [wp_transaction, wp_bind]
  have hsorted := sortTexts_frozen (carrierFacts_eq_ok hfacts).2.2.2.1
  refine (insertOrVerifyAggregate_ok hsorted).mono (fun _ opened hopened => ?_) fun _ _ _ => rfl
  obtain ⟨⟨row, hrow, hverified⟩, hothers, hreceipts⟩ := hopened
  rw [wp_bind]
  refine insertOrVerifyReceipt_ok.mono (fun _ received hreceived => ?_) fun _ _ _ => rfl
  obtain ⟨hworks, hreceipt, hlisted⟩ := hreceived
  refine (settleIfComplete_ok (hworks ▸ hrow) hverified.carrierUnitIds rfl).mono
    (fun _ store' hsettled => ?_) fun _ _ _ => rfl
  obtain ⟨hsame, hcomplete, hkept, status, payload, hrow'⟩ := hsettled
  obtain ⟨h1, h2, h3, h4, h5, h6⟩ := hverified
  refine ⟨⟨⟨_, hrow', ⟨h1, h2, h3, h4, h5, h6⟩⟩, hsame ▸ hreceipt⟩, fun k => ?_⟩
  by_cases hk : k = attempt.workKey facts
  · exact hk ▸ hcomplete
  · refine (h k).congr ?_ ?_
    · rw [hkept k hk, hworks, hothers k hk]
    · rw [receiptsOf_congr hsame, hlisted k hk, receiptsOf_congr hreceipts]

/-- No receipt came, and what is collecting was collecting before. -/
structure Idle (store store' : CarrierCoordinator) : Prop where
  receipts : store'.receipts = store.receipts
  works : ∀ k row, store'.works.get? k = some row → row.status = .collecting →
    store.works.get? k = some row

theorem Idle.refl : Idle store store := ⟨rfl, fun _ _ h _ => h⟩

theorem idle_settleWork {completed : CarrierCoordinator} (h : Completing store key completed) :
    Idle store (settleWork key completed) := by
  rcases settleWork_cases key completed with ⟨row, -, -, heq⟩ | ⟨-, heq⟩
  · rw [heq]
    refine ⟨h.receipts, fun k row' hrow' hcollecting => ?_⟩
    rw [saveWork, h.works, OrderedMap.get?_set] at hrow'
    split at hrow'
    · rw [← Option.some.inj hrow'] at hcollecting
      cases hcollecting
    · exact hrow'
  · rw [heq]
    exact ⟨h.receipts, fun k row hrow _ => h.works ▸ hrow⟩

theorem idle_markWorkSettled {completion : WorkSettlementCompletion} {early : Bool} :
    Keeps (Idle store) (markWorkSettled completion early) store := by
  rw [markWorkSettled, Keeps, wp_bind, wp_check]
  refine ⟨?_, fun _ _ => .refl⟩
  rintro ⟨key, claimToken⟩ -
  dsimp only
  rw [wp_transaction, wp_ite]
  refine ⟨fun _ => ?_, fun _ => ?_⟩
  · rw [wp_bind]
    refine completeOutbox_spec.mono (fun _ completed h => ?_) fun _ _ _ => .refl
    rw [wp_modify]
    exact idle_settleWork h
  · rw [wp_modify]
    exact idle_settleWork .refl

theorem idle_claimReadyWorkSettlements {claimToken : String} {tie : WorkKey → Int} {limit : Int}
    {leaseMs : Option Int} :
    Keeps (Idle store) (claimReadyWorkSettlements now claimToken tie limit leaseMs) store := by
  simp only [claimReadyWorkSettlements, Keeps, wp_bind, wp_ite, wp_throw, wp_pure, wp_get, wp_set,
    wp_check]
  have hidle : ∀ outbox, Idle store { store with outbox } := fun _ => ⟨rfl, fun _ _ h _ => h⟩
  exact ⟨fun _ => .refl, fun _ => ⟨fun _ => .refl, fun _ => ⟨fun _ _ => hidle _,
    fun _ _ => hidle _⟩⟩⟩

theorem idle_markWorkSettlementFailed {input : ReadyWorkSettlementFailure} :
    Keeps (Idle store) (markWorkSettlementFailed input) store := by
  rw [markWorkSettlementFailed, Keeps]
  split
  · rw [wp_throw]
    exact .refl
  · simp only [wp_bind, wp_get]
    split
    · rw [wp_throw]
      exact .refl
    · rw [wp_set]
      exact ⟨rfl, fun _ _ h _ => h⟩

/-- **No event completes a work unnoticed.** -/
theorem incomplete_step (h : ∀ k, Incomplete host store k) (event : CarrierEvent host) :
    ∀ k, Incomplete host (store.step event) k := by
  have hidle : ∀ {store'}, Idle store store' → ∀ k, Incomplete host store' k := by
    intro store' hidle k row hrow hcollecting
    rw [receiptsOf_congr hidle.receipts]
    exact h k row (hidle.works k row hrow hcollecting) hcollecting
  have hkeeps : Keeps (fun store' => ∀ k, Incomplete host store' k) (perform event.now event.call)
      store := by
    obtain ⟨now, call⟩ := event
    cases call with
    | recordCarrierTerminal action object =>
      simp only [perform, Keeps, wp_bind, wp_pure]
      cases hfacts : carrierFacts object.settlement with
      | ok facts =>
        have hrecord : Wp (Attempt.record ⟨now, action, object⟩) store _ _ := record_ok hfacts h
        exact hrecord.mono (fun _ _ hok => hok.2) fun _ _ heq => heq ▸ h
      | error thrown =>
        rw [recordCarrierTerminal, wp_bind, wp_check, hfacts]
        exact ⟨fun _ hok => (by cases hok), fun _ _ => h⟩
    | markWorkSettled completion early =>
      simp only [perform, Keeps, wp_bind, wp_pure]
      exact idle_markWorkSettled.mono (fun _ _ => hidle) fun _ _ => hidle
    | claimReadyWorkSettlements claimToken tie limit leaseMs =>
      rw [perform]
      exact idle_claimReadyWorkSettlements.mono (fun _ _ => hidle) fun _ _ => hidle
    | markWorkSettlementFailed input =>
      simp only [perform, Keeps, wp_bind, wp_pure]
      exact idle_markWorkSettlementFailed.mono (fun _ _ => hidle) fun _ _ => hidle
  exact wp_final.mp hkeeps

theorem incomplete_run (events : List (CarrierEvent host)) :
    ∀ k, Incomplete host (after events) k := by
  refine runAll_invariant (fun s => ∀ k, Incomplete host s k)
    (fun _ event h => incomplete_step h event) events fun k row hrow => ?_
  rw [empty, OrderedMap.get?_empty] at hrow
  cases hrow

/-! ## Retries -/

/-- **The attempt was accepted, and the later one is for the same receipt.** -/
structure Retried (before : List (CarrierEvent host)) (first later : Attempt host) : Prop where
  intro ::
  facts : ∃ facts facts', carrierFacts first.object.settlement = .ok facts ∧
    carrierFacts later.object.settlement = .ok facts' ∧
    later.receiptKey facts' = first.receiptKey facts
  accepted : ∃ ready, result first.record (after before) = .ok ready

/-- The two attempts end the carrier in one way, with the same facts. -/
def SameTerminal (first later : Attempt host) : Prop :=
  later.action = first.action ∧ later.object.facts = first.object.facts

/-- What is thrown when a work, or a receipt, has other facts. -/
def conflicts : List BillingThrown :=
  [.error "Carrier settlement aggregate does not match frozen identity facts.",
    .error "Carrier settlement receipt conflicts with its frozen idempotency key."]

/-- **What becomes of the later attempt**: by its facts it is a replay, or a conflict. -/
structure Replays (first later : Attempt host) (store : CarrierCoordinator) : Prop where
  replay : SameTerminal first later → ∃ ready, result later.record store = .ok ready
  conflict : ¬ SameTerminal first later →
    ∃ thrown ∈ conflicts, result later.record store = .error thrown

/-- **The later attempt writes what the first wrote**, when it ends the carrier the same way. -/
def WrittenAlike (first later : Attempt host) : Prop :=
  SameTerminal first later → later.object.body = first.object.body

/-- The digest tells the texts of the two attempts apart. -/
def NoCollision (first later : Attempt host) : Prop :=
  later.fingerprint = first.fingerprint → later.text = first.text

variable {first later : Attempt host} {facts' : CarrierFacts}

theorem sameTerminal_of_text (h : later.text = first.text) : SameTerminal first later ∧
    later.object.body = first.object.body := by
  simp only [Attempt.text, Json.object.injEq, List.cons.injEq, Prod.mk.injEq, Json.text.injEq,
    true_and, and_true] at h
  refine ⟨⟨?_, SettlementObject.facts_of_body h.2⟩, h.2⟩
  revert h
  cases later.action <;> cases first.action <;> simp [CarrierTerminalAction.name]

/-- One identity has one set of facts. -/
theorem carrierFacts_unique {input input' : HarnessBillingSettlementInput}
    (h : carrierFacts input = .ok facts) (h' : carrierFacts input' = .ok facts')
    (hsame : input'.billingIdentity = input.billingIdentity) : facts' = facts := by
  obtain ⟨-, hwork, hcarrier, hunits, hkey, hreservation⟩ := carrierFacts_eq_ok h
  obtain ⟨-, hwork', hcarrier', hunits', hkey', hreservation'⟩ := carrierFacts_eq_ok h'
  rw [hsame] at hwork' hcarrier' hunits' hkey' hreservation'
  obtain ⟨aggregateKey, carrier, units, key, reservation⟩ := facts
  obtain ⟨aggregateKey', carrier', units', key', reservation'⟩ := facts'
  simp only [CarrierFacts.mk.injEq]
  exact ⟨Except.ok.inj (hwork'.symm.trans hwork), Option.some.inj (hcarrier'.symm.trans hcarrier),
    Except.ok.inj (hunits'.symm.trans hunits), Except.ok.inj (hkey'.symm.trans hkey),
    Except.ok.inj (hreservation'.symm.trans hreservation)⟩

/-- Two settlements of the same facts differ in their key alone. -/
theorem fields_of_facts {object other : SettlementObject host.toSettlementHost}
    (h : other.facts = object.facts) :
    other.settlement.workspaceId = object.settlement.workspaceId ∧
      other.settlement.billingTaskId = object.settlement.billingTaskId ∧
      other.settlement.billingIdentity = object.settlement.billingIdentity ∧
      other.settlement.quoteId = object.settlement.quoteId ∧
      other.settlement.quoteRevision = object.settlement.quoteRevision := by
  simp only [SettlementObject.facts, HarnessBillingSettlementInput.mk.injEq] at h
  obtain ⟨h1, -, h3, h4, -, h6, h7, -⟩ := h
  exact ⟨h1, h3, h4, h6, h7⟩

/-- What stands for an attempt stands for one that writes the same. -/
theorem Accepted.congr (h : Accepted first facts store) (hterminal : SameTerminal first later)
    (hprint : later.fingerprint = first.fingerprint) : Accepted later facts store := by
  obtain ⟨haction, hsame⟩ := hterminal
  obtain ⟨hworkspace, htask, hidentity, hquote, hrevision⟩ := fields_of_facts hsame
  obtain ⟨⟨row, hrow, h1, h2, h3, h4, h5, h6⟩, receipt, hreceipt, h7, h8, h9, h10⟩ := h
  rw [Attempt.workKey, ← hworkspace] at hrow
  rw [Attempt.receiptKey, ← hworkspace] at hreceipt
  refine ⟨⟨row, hrow, ?_⟩, receipt, hreceipt, ?_⟩
  · exact ⟨h1.trans htask.symm, by rw [h2, hidentity], h3.trans hquote.symm,
      h4.trans hrevision.symm, h5, h6⟩
  · exact ⟨h7.trans haction.symm, h8.trans hprint.symm, h9, h10⟩

/-- A work that is known, and whose receipts are incomplete while it collects them. -/
theorem settleIfComplete_returns {row : WorkSettlementRow} (hagree : Agree store)
    (hincomplete : Incomplete host store key) (hrow : store.works.get? key = some row)
    (hunits : sortTexts row.carrierUnitIds = facts.carrierUnitIds)
    (hkey : key.2 = facts.aggregateKey) :
    Wp (settleIfComplete host now key facts) store (fun _ _ => True) (fun _ _ => False) := by
  have hrows := hagree key
  rw [hrow] at hrows
  generalize store.outbox.get? key = outbox at hrows
  simp only [settleIfComplete, wp_bind, wp_get, hrow, wp_ite, wp_pure]
  refine ⟨fun _ => trivial, fun hunsettled => ?_⟩
  split
  · rw [wp_pure]
    trivial
  · next hnot =>
    -- what is ready has its settlement, so the work is collecting
    cases hrows with
    | collecting _ hcollecting =>
      have hreduce := hincomplete row hrow hcollecting
      rw [hkey, hunits] at hreduce
      rw [wp_bind, wp_check_ok hreduce]
      dsimp only
      rw [wp_pure]
      trivial
    | ready _ _ hready hpayload =>
      rw [readyPayload, hpayload, Option.filter_some, if_pos (by simpa using hready)] at hnot
      cases hnot
    | settled _ _ hsettled => exact absurd hsettled hunsettled

/-- **An attempt whose receipt stands is a replay.** -/
theorem record_replays (hagree : Agree store) (hincomplete : ∀ k, Incomplete host store k)
    (hfacts : carrierFacts attempt.object.settlement = .ok facts)
    (haccepted : Accepted attempt facts store) :
    Wp attempt.record store (fun _ _ => True) (fun _ _ => False) := by
  obtain ⟨⟨row, hrow, hverified⟩, receipt, hreceipt, hmatches⟩ := haccepted
  rw [Attempt.workKey] at hrow
  rw [Attempt.receiptKey] at hreceipt
  have hwork := hverified
  obtain ⟨h1, h2, h3, h4, h5, h6⟩ := hverified
  obtain ⟨h7, h8, h9, h10⟩ := hmatches
  rw [Attempt.record, recordCarrierTerminal, wp_bind, wp_check_ok hfacts, wp_transaction]
  simp only [insertOrVerifyAggregate, insertOrVerifyReceipt, wp_bind, wp_get, hrow, hreceipt,
    wp_ite, wp_throw, wp_pure]
  rw [Attempt.fingerprint] at h8
  refine ⟨fun hother => ?_, fun _ => ⟨fun hother => ?_, fun _ => ?_⟩⟩
  · simp [h1, h2, h3, h4, h5, h6] at hother
  · simp [h7, h8, h9, h10] at hother
  · exact settleIfComplete_returns hagree (hincomplete _) hrow hwork.carrierUnitIds rfl

/-- **An attempt whose receipt was written otherwise is refused.** -/
theorem record_conflicts (hfacts : carrierFacts later.object.settlement = .ok facts')
    (haccepted : Accepted first facts store) (hkey : later.receiptKey facts' = first.receiptKey facts)
    (hother : ¬ (later.action = first.action ∧ later.fingerprint = first.fingerprint)) :
    Wp later.record store (fun _ _ => False) (fun thrown _ => thrown ∈ conflicts) := by
  obtain ⟨-, receipt, hreceipt, hmatches⟩ := haccepted
  rw [← hkey, Attempt.receiptKey] at hreceipt
  have hreceiptRefused : ∀ opened : CarrierCoordinator, opened.receipts = store.receipts →
      Wp (insertOrVerifyReceipt later.action later.object.settlement facts'
          (carrierReceiptFingerprint later.action later.object))
        opened (fun _ _ => False) (fun thrown _ => thrown ∈ conflicts) := by
    intro opened hopened
    simp only [insertOrVerifyReceipt, wp_bind, wp_get, hopened, hreceipt, wp_ite, wp_throw, wp_pure]
    refine ⟨fun _ => by simp [conflicts], fun hsame => ?_⟩
    simp only [not_or, not_not] at hsame
    exact hother ⟨hsame.1.symm.trans hmatches.action, hsame.2.1.symm.trans hmatches.fingerprint⟩
  rw [Attempt.record, recordCarrierTerminal, wp_bind, wp_check_ok hfacts, wp_transaction, wp_bind]
  simp only [insertOrVerifyAggregate, wp_bind, wp_get]
  split
  · rw [wp_set]
    exact (hreceiptRefused (saveWork _ _ store) rfl).mono (fun _ _ h => h.elim) fun _ _ h => h
  · simp only [wp_ite, wp_throw, wp_pure]
    refine ⟨fun _ => by simp [conflicts], fun _ => ?_⟩
    exact (hreceiptRefused _ rfl).mono (fun _ _ h => h.elim) fun _ _ h => h

/-- What an accepted attempt leaves stands when it is retried. -/
theorem accepted_run {before : List (CarrierEvent host)}
    (hfacts : carrierFacts first.object.settlement = .ok facts)
    (haccepted : ∃ ready, result first.record (after before) = .ok ready)
    (between : List (CarrierEvent host)) :
    Accepted first facts (after (before ++ first.event :: between)) := by
  obtain ⟨ready, hready⟩ := haccepted
  have hfirst : Accepted first facts (final first.record (after before)) :=
    ((wp_iff_result.mp (record_ok hfacts (incomplete_run before))).1 ready hready).1
  have hstep : (after before).step first.event = final first.record (after before) :=
    final_bind_pure []
  rw [after, runAll_append, runAll_cons]
  refine runAll_invariant (Accepted first facts) (fun _ event h => accepted_step h event) between ?_
  exact hstep ▸ hfirst

/-- **A retry is a replay, and other facts conflict, exactly when the retry writes what the first
attempt wrote.** -/
theorem replays_iff {before between : List (CarrierEvent host)} (h : Retried before first later)
    (hdigest : NoCollision first later) :
    Replays first later (after (before ++ first.event :: between)) ↔ WrittenAlike first later := by
  obtain ⟨⟨facts, facts', hfacts, hfacts', hkey⟩, haccepted⟩ := h
  have hfirst := accepted_run hfacts haccepted between
  constructor
  · intro hreplays hterminal
    obtain ⟨ready, hready⟩ := hreplays.replay hterminal
    by_contra hbody
    have hconflict := record_conflicts hfacts' hfirst hkey fun hsame =>
      hbody (sameTerminal_of_text (hdigest hsame.2)).2
    exact (wp_iff_result.mp hconflict).1 ready hready
  · intro halike
    refine ⟨fun hterminal => ?_, fun hother => ?_⟩
    · have hprint : later.fingerprint = first.fingerprint := by
        rw [Attempt.fingerprint, Attempt.fingerprint, carrierReceiptFingerprint,
          carrierReceiptFingerprint, hterminal.1, halike hterminal]
      have hsame := carrierFacts_unique hfacts hfacts' (fields_of_facts hterminal.2).2.2.1
      have hreplay := record_replays (carriersAgree_run _) (incomplete_run _) (hsame ▸ hfacts')
        (hfirst.congr hterminal hprint)
      obtain ⟨ready, store', hready, -⟩ := hreplay.returns
      exact ⟨ready, by rw [result, hready]⟩
    · have hconflict := record_conflicts hfacts' hfirst hkey fun hsame =>
        hother (sameTerminal_of_text (hdigest hsame.2)).1
      obtain ⟨thrown, hthrown, hmem⟩ := hconflict.throws
      exact ⟨thrown, hmem, hthrown⟩

/-! ### A direct call and a worker -/

/-- The executor's own call. -/
def directAttempt : Attempt plainHost :=
  ⟨0, .commit, .ofInput _ (CompensationQueue.slowTask 0).toHarnessBillingSettlementInput⟩

/-- What a worker claims once the same settlement was enqueued. -/
def claimedTask : HarnessBillingCompensationTask :=
  let queue := CompensationQueue.after [⟨0, .enqueue (CompensationQueue.slowTask 0)⟩]
  (queue.handedOut ⟨1, .claimBatch (fun _ => 0) 20⟩).headD (CompensationQueue.slowTask 0)

def taskAttempt : Attempt plainHost := ⟨2, claimedTask.action, .ofTask _ claimedTask⟩

theorem ok_of_isSome {ε α : Type} {x : Except ε α} (h : x.toOption.isSome = true) :
    ∃ a, x = .ok a := by
  cases x with
  | ok a => exact ⟨a, rfl⟩
  | error e => exact nomatch h

theorem directAttempt_accepted :
    ∃ ready, result directAttempt.record (after ([] : List (CarrierEvent plainHost))) = .ok ready :=
  ok_of_isSome (by decide +kernel)

/-- The direct call made again. -/
theorem replays_iff_direct :
    Replays directAttempt directAttempt (after ([] ++ directAttempt.event :: [])) ↔
      WrittenAlike directAttempt directAttempt := by
  obtain ⟨facts, hfacts⟩ : ∃ facts, carrierFacts directAttempt.object.settlement = .ok facts :=
    ok_of_isSome (by decide +kernel)
  exact replays_iff ⟨⟨facts, facts, hfacts, hfacts, rfl⟩, directAttempt_accepted⟩ fun _ => rfl

/-- **The worker is refused**, though it ends the carrier in the same way. -/
theorem not_replays_task : ¬ ∀ before between (first later : Attempt plainHost),
    Retried before first later → NoCollision first later →
      Replays first later (after (before ++ first.event :: between)) := by
  intro h
  obtain ⟨facts, hfacts⟩ : ∃ facts, carrierFacts directAttempt.object.settlement = .ok facts :=
    ok_of_isSome (by decide +kernel)
  have hclaimed : carrierFacts taskAttempt.object.settlement =
      carrierFacts directAttempt.object.settlement := by decide +kernel
  have hprint : taskAttempt.fingerprint ≠ directAttempt.fingerprint := by decide +kernel
  have hrefused : (result taskAttempt.record (after [directAttempt.event])).toOption = none := by
    decide +kernel
  have hreplays := h [] [] directAttempt taskAttempt
    ⟨⟨facts, facts, hfacts, hclaimed.trans hfacts, rfl⟩, directAttempt_accepted⟩
    fun heq => absurd heq hprint
  obtain ⟨ready, hready⟩ := hreplays.replay ⟨by decide +kernel, by decide +kernel⟩
  rw [List.nil_append] at hready
  rw [hready] at hrefused
  exact nomatch hrefused

end CarrierCoordinator

end MeiyeAgent
