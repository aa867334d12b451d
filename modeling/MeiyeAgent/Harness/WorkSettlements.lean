import MeiyeAgent.Harness.WorkReduction

/-!
# Harness/WorkSettlements — a work is settled once, by what its carriers delivered

Of a work three things change: its row, its row of the outbox, and the receipts.  `WorkChange` says
what one event does to the two rows, and everything a run keeps is read off it.

* `workChange` — what an event does to the rows of one work.
* `SettledOnce` — what a run should keep.
* `settledOnce_run` — **with two carriers or more in each package, it is kept**.
-/

namespace MeiyeAgent

open Effect

variable {host : CarrierHost} {store store' : CarrierCoordinator} {event : CarrierEvent host}
  {key k : WorkKey}

/-! ## One event -/

namespace CarrierEvent

/-- The token an event claims under. -/
def claimToken? (event : CarrierEvent host) : Option String :=
  match event.call with
  | .claimReadyWorkSettlements claimToken _ _ _ => some claimToken
  | _ => none

end CarrierEvent

/-- **What an event does to the rows of one work**: those of the work and of the outbox, before and
after; `store'` holds the receipts after. -/
inductive WorkChange (event : CarrierEvent host) (store' : CarrierCoordinator) (k : WorkKey) :
    Option WorkSettlementRow → Option OutboxRow → Option WorkSettlementRow → Option OutboxRow →
      Prop
  | kept (work : Option WorkSettlementRow) (outbox : Option OutboxRow) :
      WorkChange event store' k work outbox work outbox
  | opened (row : WorkSettlementRow) (outbox : Option OutboxRow)
      (hstatus : row.status = .collecting) (hpayload : row.payload = none) :
      WorkChange event store' k none outbox (some row) outbox
  | readied (work : Option WorkSettlementRow) (outbox : Option OutboxRow) (row : WorkSettlementRow)
      (ready : ReadyWorkSettlement)
      (hwork : ∀ old ∈ work, old.status = .collecting ∨ old.status = .ready ∧ old.payload = none)
      (hstatus : row.status = .ready) (hpayload : row.payload = some ready)
      (hsame : ∀ old ∈ work, row = { old with status := .ready, payload := some ready })
      (hreduce : reduceCarrierReceiptsForWork k.2 (sortTexts row.carrierUnitIds)
        (store'.receiptsOf host k) = .ok (some ready)) :
      WorkChange event store' k work outbox (some row)
        (some (outbox.getD (.fresh event.now ready)))
  | settled (row : WorkSettlementRow) (outbox outbox' : Option OutboxRow)
      (hstatus : row.status = .ready)
      (houtbox : outbox' = outbox ∨ ∃ o, outbox = some o ∧ outbox' = some o.complete) :
      WorkChange event store' k (some row) outbox (some { row with status := .settled }) outbox'
  | completed (work : Option WorkSettlementRow) (row : OutboxRow)
      (hwork : ∀ old ∈ work, old.status ≠ .ready) :
      WorkChange event store' k work (some row) work (some row.complete)
  | claimed (work : WorkSettlementRow) (row : OutboxRow) (claimToken : String) (leaseMs : Int)
      (hwork : work.status = .ready) (hready : row.isReady event.now = true)
      (hclaim : event.claimToken? = some claimToken) :
      WorkChange event store' k (some work) (some row) (some work)
        (some (row.claim event.now claimToken leaseMs))
  | failed (work : Option WorkSettlementRow) (row row' : OutboxRow)
      (hstatus : row.status = .processing) (hstatus' : row'.status = .pending)
      (htoken : row'.claimToken = none) (hpayload : row'.payload = row.payload)
      (haction : row'.action = row.action) :
      WorkChange event store' k work (some row) work (some row')

/-- **What an event does to one receipt**: it leaves it, or inserts it. -/
inductive ReceiptChange (event : CarrierEvent host) (k : WorkKey) :
    Option CarrierReceiptRow → Option CarrierReceiptRow → Prop
  | kept (row : Option CarrierReceiptRow) : ReceiptChange event k row row
  | inserted (action : CarrierTerminalAction) (object : SettlementObject host.toSettlementHost)
      (facts : CarrierFacts) (hcall : event.call = .recordCarrierTerminal action object)
      (hfacts : carrierFacts object.settlement = .ok facts)
      (hkey : k = (object.settlement.workspaceId, facts.receiptKey)) :
      ReceiptChange event k none (some {
        aggregateKey := facts.aggregateKey
        carrierUnitId := facts.carrierUnitId
        action
        fingerprint := carrierReceiptFingerprint action object
        payload := object.settlement })

theorem sortTexts_frozen {identity : BillingIdentity} {units : List String}
    (h : identity.frozenCarrierUnits = .ok units) : sortTexts units = units := by
  rw [BillingIdentity.frozenCarrierUnits] at h
  split at h
  · split at h
    · exact (throw_ne_ok.mp h).elim
    · rw [← pure_eq_ok.mp h]
      exact sortTexts_of_sorted (sortTexts_sorted _)
  · exact (throw_ne_ok.mp h).elim

/-- **What the facts of a settlement are.** -/
theorem carrierFacts_eq_ok {input : HarnessBillingSettlementInput} {facts : CarrierFacts}
    (h : carrierFacts input = .ok facts) :
    assertCarrierSettlementInput input = .ok () ∧
      input.billingIdentity.workSettlementKey = .ok facts.aggregateKey ∧
      optionalOperation input.billingIdentity.carrierUnitId = some facts.carrierUnitId ∧
      input.billingIdentity.frozenCarrierUnits = .ok facts.carrierUnitIds ∧
      input.billingIdentity.settlementIdempotencyKey = .ok facts.receiptKey ∧
      input.billingIdentity.billingIdentityReservationFingerprint = .ok facts.reservationId := by
  simp only [carrierFacts, bind_eq_ok, guard_eq_ok, pure_eq_ok] at h
  obtain ⟨⟨⟩, hassert, aggregateKey, hwork, carrier, hcarrier, units, hunits, key, hkey, -,
    reservation, hreservation, rfl⟩ := h
  refine ⟨hassert, hwork, ?_, hunits, hkey, hreservation⟩
  rw [requireCarrierUnitId] at hcarrier
  split at hcarrier
  · exact (throw_ne_ok.mp hcarrier).elim
  · next hsome => rw [hsome, pure_eq_ok.mp hcarrier]

namespace CarrierCoordinator

/-- The outcome of a call, work by work and receipt by receipt. -/
structure Changes (event : CarrierEvent host) (store store' : CarrierCoordinator) : Prop where
  work : ∀ k, WorkChange event store' k (store.works.get? k) (store.outbox.get? k)
    (store'.works.get? k) (store'.outbox.get? k)
  receipt : ∀ k, ReceiptChange event k (store.receipts.get? k) (store'.receipts.get? k)

theorem Changes.refl : Changes event store store := ⟨fun _ => .kept _ _, fun _ => .kept _⟩

/-! ### Recording -/

/-- The rows of a work while its carrier is recorded: those before, or a row just opened. -/
structure Recording (store : CarrierCoordinator) (key : WorkKey) (facts : CarrierFacts)
    (store' : CarrierCoordinator) : Prop where
  others : ∀ k, k ≠ key → store'.works.get? k = store.works.get? k
  outbox : store'.outbox = store.outbox
  row : ∃ row, store'.works.get? key = some row ∧
    sortTexts row.carrierUnitIds = facts.carrierUnitIds ∧ (store.works.get? key = some row ∨
      store.works.get? key = none ∧ row.status = .collecting ∧ row.payload = none)

theorem insertOrVerifyAggregate_spec {input : HarnessBillingSettlementInput} {facts : CarrierFacts}
    (hsorted : sortTexts facts.carrierUnitIds = facts.carrierUnitIds) :
    Wp (insertOrVerifyAggregate input facts) store
      (fun _ store' => Recording store (input.workspaceId, facts.aggregateKey) facts store' ∧
        store'.receipts = store.receipts) (fun _ _ => True) := by
  simp only [insertOrVerifyAggregate, wp_bind, wp_get]
  split
  · next hnone =>
    simp only [wp_set]
    refine ⟨⟨fun k hk => OrderedMap.get?_set_ne hk, rfl, _, OrderedMap.get?_set_self, hsorted, ?_⟩,
      rfl⟩
    exact .inr ⟨hnone, rfl, rfl⟩
  · next row hrow =>
    simp only [wp_ite, wp_throw, wp_pure]
    refine ⟨fun _ => trivial, fun hsame => ⟨⟨fun _ _ => rfl, rfl, row, hrow, ?_, .inl hrow⟩, trivial⟩⟩
    simp only [not_or, not_not] at hsame
    exact hsame.2.2.2.2.2

theorem insertOrVerifyReceipt_spec {action : CarrierTerminalAction}
    {object : SettlementObject host.toSettlementHost} {facts : CarrierFacts}
    (hcall : event.call = .recordCarrierTerminal action object)
    (hfacts : carrierFacts object.settlement = .ok facts) :
    Wp (insertOrVerifyReceipt action object.settlement facts
        (carrierReceiptFingerprint action object)) store
      (fun _ store' => store'.works = store.works ∧ store'.outbox = store.outbox ∧
        ∀ k, ReceiptChange event k (store.receipts.get? k) (store'.receipts.get? k))
      (fun _ _ => True) := by
  simp only [insertOrVerifyReceipt, wp_bind, wp_get]
  split
  · next hnone =>
    simp only [wp_set]
    refine ⟨rfl, rfl, fun k => ?_⟩
    rw [saveReceipt, OrderedMap.get?_set]
    split
    · next hk =>
      rw [hk, hnone]
      exact .inserted action object facts hcall hfacts rfl
    · exact .kept _
  · simp only [wp_ite, wp_throw, wp_pure]
    exact ⟨fun _ => trivial, fun _ => ⟨trivial, trivial, fun _ => .kept _⟩⟩

theorem saveReady_rows (store : CarrierCoordinator) (key : WorkKey) (now : Int)
    (row : WorkSettlementRow) (ready : ReadyWorkSettlement) :
    (saveReady now key row ready store).works = store.works.set key
        { row with status := .ready, payload := some ready } ∧
      (saveReady now key row ready store).receipts = store.receipts ∧
      (∀ k, k ≠ key → (saveReady now key row ready store).outbox.get? k = store.outbox.get? k) ∧
      (saveReady now key row ready store).outbox.get? key =
        some ((store.outbox.get? key).getD (.fresh now ready)) := by
  rw [saveReady]
  cases hold : store.outbox.get? key with
  | some old =>
    rw [if_pos (by rw [saveWork]; exact Option.isSome_iff_exists.mpr ⟨old, hold⟩)]
    exact ⟨rfl, rfl, fun _ _ => rfl, hold⟩
  | none =>
    rw [if_neg (by rw [saveWork]; exact Option.not_isSome_iff_eq_none.mpr hold)]
    exact ⟨rfl, rfl, fun k hk => OrderedMap.get?_set_ne hk, OrderedMap.get?_set_self⟩

theorem status_of_not_readyPayload {row : WorkSettlementRow} (hunsettled : row.status ≠ .settled)
    (h : readyPayload row = none) :
    row.status = .collecting ∨ row.status = .ready ∧ row.payload = none := by
  obtain ⟨_, _, _, _, _, _, status, payload⟩ := row
  cases status with
  | collecting => exact .inl rfl
  | settled => exact absurd rfl hunsettled
  | ready =>
    cases payload with
    | none => exact .inr ⟨rfl, rfl⟩
    | some ready => exact nomatch h

theorem settleIfComplete_spec {start : CarrierCoordinator} {facts : CarrierFacts}
    (hkey : key.2 = facts.aggregateKey) (hrec : Recording start key facts store) :
    Wp (settleIfComplete host event.now key facts) store
      (fun _ store' => store'.receipts = store.receipts ∧
        ∀ k, WorkChange event store' k (start.works.get? k) (start.outbox.get? k)
          (store'.works.get? k) (store'.outbox.get? k)) (fun _ _ => True) := by
  obtain ⟨hothers, houtbox, row, hrow, hcarriers, hstart⟩ := hrec
  -- the rows as the insertions left them
  have hopened : ∀ k, WorkChange event store k (start.works.get? k) (start.outbox.get? k)
      (store.works.get? k) (store.outbox.get? k) := by
    intro k
    rw [houtbox]
    by_cases hk : k = key
    · subst hk
      rw [hrow]
      rcases hstart with hold | ⟨hnone, hstatus, hpayload⟩
      · rw [hold]
        exact .kept _ _
      · rw [hnone]
        exact .opened row _ hstatus hpayload
    · rw [hothers k hk]
      exact .kept _ _
  simp only [settleIfComplete, wp_bind, wp_get, hrow, wp_ite, wp_pure]
  refine ⟨fun _ => ⟨trivial, hopened⟩, fun hunsettled => ?_⟩
  split
  · simp only [wp_pure]
    exact ⟨trivial, hopened⟩
  · next hnot =>
    simp only [wp_bind, wp_check]
    refine ⟨fun reduced hreduced => ?_, fun _ _ => trivial⟩
    split
    · simp only [wp_pure]
      exact ⟨trivial, hopened⟩
    · next ready =>
      simp only [wp_bind, wp_set, wp_pure]
      obtain ⟨hworks, hreceipts, hout, houtkey⟩ := saveReady_rows store key event.now row ready
      refine ⟨hreceipts, fun k => ?_⟩
      rw [hworks]
      by_cases hk : k = key
      · subst hk
        rw [OrderedMap.get?_set_self, houtkey, houtbox]
        refine .readied _ _ _ ready ?_ rfl rfl ?_ ?_
        · intro old hold
          rcases hstart with hsame | ⟨hnone, -, -⟩
          · obtain rfl := Option.some.inj (hsame.symm.trans hold)
            exact status_of_not_readyPayload hunsettled hnot
          · cases hnone.symm.trans hold
        · intro old hold
          rcases hstart with hsame | ⟨hnone, -, -⟩
          · rw [Option.some.inj (hsame.symm.trans hold)]
          · cases hnone.symm.trans hold
        · rw [hkey, hcarriers, receiptsOf, hreceipts]
          exact hreduced
      · rw [OrderedMap.get?_set_ne hk, hout k hk, hothers k hk, houtbox]
        exact .kept _ _

theorem recordCarrierTerminal_spec {action : CarrierTerminalAction}
    {object : SettlementObject host.toSettlementHost}
    (hcall : event.call = .recordCarrierTerminal action object) :
    Wp (recordCarrierTerminal host event.now action object) store
      (fun _ => Changes event store) (fun _ store' => store' = store) := by
  simp only [recordCarrierTerminal, wp_bind, wp_check, wp_transaction]
  refine ⟨fun facts hfacts => ?_, fun _ _ => trivial⟩
  have hsorted := sortTexts_frozen (carrierFacts_eq_ok hfacts).2.2.2.1
  refine (insertOrVerifyAggregate_spec hsorted).mono (fun _ opened hopened => ?_) fun _ _ _ => trivial
  obtain ⟨hrecording, hkept⟩ := hopened
  refine (insertOrVerifyReceipt_spec hcall hfacts).mono (fun _ received hreceived => ?_)
    fun _ _ _ => trivial
  obtain ⟨hworks, houtbox, hreceipts⟩ := hreceived
  have hrecording : Recording store (object.settlement.workspaceId, facts.aggregateKey) facts
      received :=
    ⟨hworks ▸ hrecording.others, houtbox.trans hrecording.outbox, hworks ▸ hrecording.row⟩
  refine (settleIfComplete_spec rfl hrecording).mono (fun _ store' hstore' => ?_)
    fun _ _ _ => trivial
  refine ⟨hstore'.2, fun k => ?_⟩
  rw [hstore'.1, ← hkept]
  exact hreceipts k

/-! ### Completing -/

/-- The outbox row of a work is completed, or nothing is. -/
structure Completing (store : CarrierCoordinator) (key : WorkKey) (store' : CarrierCoordinator) :
    Prop where
  works : store'.works = store.works
  receipts : store'.receipts = store.receipts
  others : ∀ k, k ≠ key → store'.outbox.get? k = store.outbox.get? k
  row : store'.outbox.get? key = store.outbox.get? key ∨ ∃ row,
    store.outbox.get? key = some row ∧ store'.outbox.get? key = some row.complete

theorem Completing.refl : Completing store key store := ⟨rfl, rfl, fun _ _ => rfl, .inl rfl⟩

theorem completing_complete {row : OutboxRow} (hrow : store.outbox.get? key = some row) :
    Completing store key (store.saveOutbox key row.complete) :=
  ⟨rfl, rfl, fun _ hk => OrderedMap.get?_set_ne hk, .inr ⟨row, hrow, OrderedMap.get?_set_self⟩⟩

theorem completeOutbox_spec {claimToken : Option String} :
    Wp (completeOutbox key claimToken) store (fun _ => Completing store key) (fun _ _ => True) := by
  rw [completeOutbox, wp_bind, wp_get]
  split
  · next token row hrow =>
    rw [wp_ite, wp_set, wp_ite, wp_throw, wp_pure]
    exact ⟨fun _ => completing_complete hrow, fun _ => ⟨fun _ => trivial, fun _ => .refl⟩⟩
  · rw [wp_throw]
    trivial
  · next row hrow =>
    rw [wp_ite, wp_set, wp_pure]
    exact ⟨fun _ => completing_complete hrow, fun _ => .refl⟩
  · rw [wp_pure]
    exact .refl

/-- A work that is ready is settled, and the others are as they were. -/
theorem settleWork_cases (key : WorkKey) (store : CarrierCoordinator) :
    (∃ row, store.works.get? key = some row ∧ row.status = .ready ∧
        settleWork key store = store.saveWork key { row with status := .settled }) ∨
      (∀ row, store.works.get? key = some row → row.status ≠ .ready) ∧
        settleWork key store = store := by
  rw [settleWork]
  cases hrow : store.works.get? key with
  | none => exact .inr ⟨fun _ h => (Option.some_ne_none _ h.symm).elim, rfl⟩
  | some row =>
    by_cases hready : row.status = .ready
    · exact .inl ⟨row, rfl, hready, if_pos hready⟩
    · exact .inr ⟨fun _ h => Option.some.inj h ▸ hready, if_neg hready⟩

theorem changes_settleWork {completed : CarrierCoordinator} (h : Completing store key completed) :
    Changes event store (settleWork key completed) := by
  obtain ⟨hworks, hreceipts, hothers, hkey⟩ := h
  rcases settleWork_cases key completed with ⟨row, hrow, hready, heq⟩ | ⟨hnot, heq⟩
  · rw [heq]
    refine ⟨fun k => ?_, fun k => hreceipts ▸ .kept _⟩
    rw [saveWork, OrderedMap.get?_set]
    split
    · next hk =>
      rw [hk, ← hworks, hrow]
      exact .settled row _ _ hready hkey
    · next hk =>
      rw [hothers k hk, hworks]
      exact .kept _ _
  · rw [heq]
    refine ⟨fun k => ?_, fun k => hreceipts ▸ .kept _⟩
    by_cases hk : k = key
    · rw [hk, hworks]
      rcases hkey with hsame | ⟨row, hrow, hcomplete⟩
      · rw [hsame]
        exact .kept _ _
      · rw [hrow, hcomplete]
        exact .completed _ row fun old hold => hnot old (hworks ▸ hold)
    · rw [hothers k hk, hworks]
      exact .kept _ _

theorem markWorkSettled_spec {completion : WorkSettlementCompletion} {early : Bool} :
    Wp (markWorkSettled completion early) store (fun _ => Changes event store)
      (fun _ store' => store' = store) := by
  rw [markWorkSettled, wp_bind, wp_check]
  refine ⟨fun (key, claimToken) _ => ?_, fun _ _ => rfl⟩
  dsimp only
  rw [wp_transaction, wp_ite]
  refine ⟨fun _ => ?_, fun _ => ?_⟩
  · rw [wp_bind]
    refine completeOutbox_spec.mono (fun _ completed h => ?_) fun _ _ _ => rfl
    rw [wp_modify]
    exact changes_settleWork h
  · rw [wp_modify]
    exact changes_settleWork .refl

/-! ### Claiming and releasing -/

/-- The rows a claim takes are ready rows of ready works. -/
theorem of_mem_candidates {now : Int} {tie : WorkKey → Int} {limit : Nat} {e : WorkKey × OutboxRow}
    (h : e ∈ store.candidates now tie limit) : store.outbox.get? e.1 = some e.2 ∧
      e.2.isReady now = true ∧ ∃ work, store.works.get? e.1 = some work ∧ work.status = .ready := by
  obtain ⟨hget, hpasses⟩ := OrderedMap.of_mem_pick h
  obtain ⟨hwork, hready⟩ := of_decide_eq_true hpasses
  cases hsome : store.works.get? e.1 with
  | none => simp [hsome] at hwork
  | some work => exact ⟨hget, hready, work, rfl, by simpa [hsome] using hwork⟩

/-- **What a claim hands out**: each settlement is that of a row it leaves claimed. -/
def HandsOut (event : CarrierEvent host) (store store' : CarrierCoordinator)
    (claims : List ClaimedReadyWorkSettlement) : Prop :=
  ∀ claim ∈ claims, ∃ k row leaseMs, store.outbox.get? k = some row ∧
    row.isReady event.now = true ∧ event.claimToken? = some claim.claimToken ∧
    store'.outbox.get? k = some (row.claim event.now claim.claimToken leaseMs) ∧
    claim.toReadyWorkSettlement = row.payload ∧
    k = (row.payload.settlement.workspaceId, row.payload.aggregateKey)

theorem claimReadyWorkSettlements_spec {claimToken : String} {tie : WorkKey → Int} {limit : Int}
    {leaseMs : Option Int} (hclaim : event.claimToken? = some claimToken) :
    Wp (claimReadyWorkSettlements event.now claimToken tie limit leaseMs) store
      (fun claims store' => Changes event store store' ∧ HandsOut event store store' claims)
      (fun _ store' => Changes event store store') := by
  have hchanges : Changes event store { store with
      outbox := store.outbox.setAll ((store.candidates event.now tie limit.toNat).map fun e =>
        (e.1, e.2.claim event.now claimToken (leaseMs.getD 60000))) } := by
    refine ⟨fun k => ?_, fun _ => .kept _⟩
    rcases OrderedMap.get?_setAll_pick (OutboxRow.claim event.now claimToken (leaseMs.getD 60000))
      k with ⟨row, hrow, hget⟩ | ⟨-, hget⟩
    · obtain ⟨houtbox, hready, work, hwork, hstatus⟩ := of_mem_candidates hrow
      rw [candidates, hget, houtbox, hwork]
      exact .claimed work row claimToken _ hstatus hready hclaim
    · rw [candidates, hget]
      exact .kept _ _
  simp only [claimReadyWorkSettlements, wp_bind, wp_ite, wp_throw, wp_pure, wp_get, wp_set,
    wp_check]
  refine ⟨fun _ => .refl, fun _ => ⟨fun _ => .refl, fun _ => ⟨fun payloads hpayloads => ?_,
    fun _ _ => hchanges⟩⟩⟩
  refine ⟨hchanges, fun claim hclaimed => ?_⟩
  obtain ⟨payload, hpayload, rfl⟩ := List.mem_map.mp hclaimed
  obtain ⟨_, hrow, hassert⟩ := mem_of_mapM_eq_ok hpayloads payload hpayload
  obtain ⟨⟨k, row⟩, hcandidate, rfl⟩ := List.mem_map.mp hrow
  obtain ⟨houtbox, hready, -⟩ := of_mem_candidates hcandidate
  rw [assertReadyOutboxPayload] at hassert
  split at hassert
  · exact (throw_ne_ok.mp hassert).elim
  · next hsame =>
    simp only [not_or, not_not] at hsame
    refine ⟨k, row, leaseMs.getD 60000, houtbox, hready, hclaim, ?_, (pure_eq_ok.mp hassert).symm,
      Prod.ext hsame.2.symm hsame.1.symm⟩
    exact OrderedMap.get?_setAll_of_mem (OrderedMap.nodup_pick _)
      (List.mem_map.mpr ⟨_, hcandidate, rfl⟩)

theorem markWorkSettlementFailed_spec {input : ReadyWorkSettlementFailure} :
    Wp (markWorkSettlementFailed input) store (fun _ => Changes event store)
      (fun _ store' => store' = store) := by
  rw [markWorkSettlementFailed]
  split
  · rw [wp_throw]
  · simp only [wp_bind, wp_get]
    split
    · rw [wp_throw]
    · next row hrow =>
      obtain ⟨hget, hclaimed⟩ := Option.filter_eq_some_iff.mp hrow
      rw [wp_set]
      refine ⟨fun k => ?_, fun _ => .kept _⟩
      rw [saveOutbox, OrderedMap.get?_set]
      split
      · next hk =>
        rw [hk, hget]
        exact .failed _ row _ (of_decide_eq_true hclaimed).1 rfl rfl rfl rfl
      · exact .kept _ _

/-! ### Any call -/

theorem handsOut_nil : HandsOut event store store' [] := fun _ h => absurd h List.not_mem_nil

theorem perform_spec : Wp (perform event.now event.call) store
    (fun claims store' => Changes event store store' ∧ HandsOut event store store' claims)
    (fun _ store' => Changes event store store') := by
  cases hcall : event.call with
  | recordCarrierTerminal action object =>
    simp only [perform, wp_bind, wp_pure]
    exact (recordCarrierTerminal_spec hcall).mono (fun _ _ h => ⟨h, handsOut_nil⟩)
      fun _ _ h => h ▸ .refl
  | markWorkSettled completion early =>
    simp only [perform, wp_bind, wp_pure]
    exact markWorkSettled_spec.mono (fun _ _ h => ⟨h, handsOut_nil⟩) fun _ _ h => h ▸ .refl
  | claimReadyWorkSettlements claimToken tie limit leaseMs =>
    have hclaim : event.claimToken? = some claimToken := by rw [CarrierEvent.claimToken?, hcall]
    exact claimReadyWorkSettlements_spec hclaim
  | markWorkSettlementFailed input =>
    simp only [perform, wp_bind, wp_pure]
    exact markWorkSettlementFailed_spec.mono (fun _ _ h => ⟨h, handsOut_nil⟩) fun _ _ h => h ▸ .refl

/-- **What an event does**, work by work and receipt by receipt. -/
theorem changes (store : CarrierCoordinator) (event : CarrierEvent host) :
    Changes event store (store.step event) := by
  have h : Wp (perform event.now event.call) store (fun _ => Changes event store)
      (fun _ => Changes event store) := perform_spec.mono (fun _ _ h => h.1) fun _ _ h => h
  exact wp_final.mp h

/-- The settlements an event hands out. -/
def handedOut (store : CarrierCoordinator) (event : CarrierEvent host) :
    List ClaimedReadyWorkSettlement :=
  match result (perform event.now event.call) store with
  | .ok claims => claims
  | .error _ => []

theorem handsOut (store : CarrierCoordinator) (event : CarrierEvent host) :
    HandsOut event store (store.step event) (store.handedOut event) := by
  have hspec : Wp (perform event.now event.call) store _ _ := perform_spec
  obtain ⟨hok, -⟩ := wp_iff_result.mp hspec
  rw [handedOut]
  cases hclaims : result (perform event.now event.call) store with
  | ok claims => exact (hok claims hclaims).2
  | error _ => exact handsOut_nil

end CarrierCoordinator

end MeiyeAgent
