import MeiyeAgent.Harness.WorkSettlements

/-!
# Harness/SettledOnce — what a run of the coordinator keeps

The rows of a work agree in every state: no outbox row while receipts are collected, one with the
work's own settlement from then on, and a completed one only of a settled work.  A claim is fenced
by its token, which no later claim has.

* `carriersAgree_run`, `recorded_run` — the invariants of every run.
* `SettledOnce` — what the run of a work's settlement should be.
* `settledOnce_run` — **it is so, when each package has two carriers or more**.
-/

namespace MeiyeAgent

open Effect

variable {host : CarrierHost} {store store' : CarrierCoordinator} {event : CarrierEvent host}
  {k : WorkKey}

/-! ## The rows of a work agree -/

/-- **How the two rows of a work stand**: no outbox row until it is ready, and its own settlement
in it from then on. -/
inductive RowsAgree : Option WorkSettlementRow → Option OutboxRow → Prop
  | absent : RowsAgree none none
  | collecting (row : WorkSettlementRow) (hstatus : row.status = .collecting) :
      RowsAgree (some row) none
  | ready (row : WorkSettlementRow) (outbox : OutboxRow) (hstatus : row.status = .ready)
      (hpayload : row.payload = some outbox.payload)
      (haction : outbox.action = outbox.payload.action) (hopen : outbox.status ≠ .completed) :
      RowsAgree (some row) (some outbox)
  | settled (row : WorkSettlementRow) (outbox : OutboxRow) (hstatus : row.status = .settled)
      (hpayload : row.payload = some outbox.payload)
      (haction : outbox.action = outbox.payload.action) : RowsAgree (some row) (some outbox)

/-- **An event keeps the rows of a work in agreement.** -/
theorem RowsAgree.step {work work' : Option WorkSettlementRow} {outbox outbox' : Option OutboxRow}
    (h : RowsAgree work outbox) (hchange : WorkChange event store' k work outbox work' outbox') :
    RowsAgree work' outbox' := by
  cases hchange with
  | kept => exact h
  | opened row _ hstatus =>
    cases h with
    | absent => exact .collecting row hstatus
  | readied _ _ row ready hwork hstatus hpayload hreduce =>
    cases h with
    | absent => exact .ready row _ hstatus hpayload rfl nofun
    | collecting => exact .ready row _ hstatus hpayload rfl nofun
    | ready old _ hold hsome =>
      rcases hwork old rfl with hcollecting | ⟨-, hnone⟩
      · exact nomatch hold.symm.trans hcollecting
      · exact nomatch hsome.symm.trans hnone
    | settled old _ hold =>
      rcases hwork old rfl with hcollecting | ⟨hready, -⟩
      · exact nomatch hold.symm.trans hcollecting
      · exact nomatch hold.symm.trans hready
  | settled row _ _ hstatus houtbox =>
    cases h with
    | collecting _ hcollecting => exact nomatch hstatus.symm.trans hcollecting
    | ready _ o _ hpayload haction =>
      rcases houtbox with rfl | ⟨_, hsome, rfl⟩
      · exact .settled _ o rfl hpayload haction
      · obtain rfl := Option.some.inj hsome
        exact .settled _ _ rfl hpayload haction
    | settled _ _ hsettled => exact nomatch hstatus.symm.trans hsettled
  | completed _ row hwork =>
    cases h with
    | ready old _ hready => exact absurd hready (hwork old rfl)
    | settled old _ hsettled hpayload haction => exact .settled old _ hsettled hpayload haction
  | claimed work row _ _ hwork =>
    cases h with
    | ready _ _ hready hpayload haction => exact .ready work _ hready hpayload haction nofun
    | settled _ _ hsettled => exact nomatch hwork.symm.trans hsettled
  | failed _ row row' _ hpending _ hpayload' haction' =>
    cases h with
    | ready old _ hready hpayload haction =>
      refine .ready old _ hready (hpayload'.symm ▸ hpayload) ?_ (by rw [hpending]; nofun)
      rw [haction', hpayload', haction]
    | settled old _ hsettled hpayload haction =>
      refine .settled old _ hsettled (hpayload'.symm ▸ hpayload) ?_
      rw [haction', hpayload', haction]

namespace CarrierCoordinator

/-- The rows of every work agree. -/
def Agree (store : CarrierCoordinator) : Prop :=
  ∀ k, RowsAgree (store.works.get? k) (store.outbox.get? k)

theorem agree_step (h : Agree store) (event : CarrierEvent host) : Agree (store.step event) :=
  fun k => (h k).step ((changes store event).work k)

/-- The tables after a run from the start. -/
abbrev after (events : List (CarrierEvent host)) : CarrierCoordinator := runAll step events empty

theorem carriersAgree_run (events : List (CarrierEvent host)) : Agree (after events) := by
  refine runAll_invariant Agree (fun _ event h => agree_step h event) events fun k => ?_
  rw [empty, OrderedMap.get?_empty, OrderedMap.get?_empty]
  exact .absent

/-! ## The receipts -/

/-- **Each package has two carriers or more.** -/
def Several (event : CarrierEvent host) : Prop :=
  ∀ action object, event.call = .recordCarrierTerminal action object →
    object.settlement.billingIdentity.packageBilling.isSome = true →
      2 ≤ (object.settlement.billingIdentity.carrierUnitIds.getD []).length

/-- The receipt stands under its own workspace and carrier. -/
def Recorded (store : CarrierCoordinator) : Prop :=
  ∀ key row, store.receipts.get? key = some row →
    row.payload.workspaceId = key.1 ∧ row.carrierUnitId = row.carrier

theorem recorded_step (h : Recorded store) (event : CarrierEvent host) :
    Recorded (store.step event) := by
  intro key row hrow
  have hchange := (changes store event).receipt key
  rw [hrow] at hchange
  cases hold : store.receipts.get? key with
  | some old =>
    rw [hold] at hchange
    cases hchange with
    | kept => exact h key _ hold
  | none =>
    rw [hold] at hchange
    cases hchange with
    | inserted action object facts _ hfacts hkey =>
      refine ⟨(congrArg Prod.fst hkey).symm, ?_⟩
      rw [CarrierReceiptRow.carrier, (carrierFacts_eq_ok hfacts).2.2.1]
      rfl

theorem recorded_run (events : List (CarrierEvent host)) : Recorded (after events) := by
  refine runAll_invariant Recorded (fun _ event h => recorded_step h event) events fun k row h => ?_
  rw [empty, OrderedMap.get?_empty] at h
  exact nomatch h

/-- A receipt of a package has two carriers or more. -/
def SeveralCarriers (store : CarrierCoordinator) : Prop :=
  ∀ key row, store.receipts.get? key = some row →
    row.payload.billingIdentity.packageBilling.isSome = true →
    ∀ units, row.payload.billingIdentity.frozenCarrierUnits = .ok units → 2 ≤ units.length

theorem length_frozen {identity : BillingIdentity} {units : List String}
    (h : identity.frozenCarrierUnits = .ok units) :
    units.length = (identity.carrierUnitIds.getD []).length := by
  rw [BillingIdentity.frozenCarrierUnits] at h
  split at h
  · next carrier trimmed _ htrimmed =>
    split at h
    · exact (throw_ne_ok.mp h).elim
    · obtain ⟨carriers, hcarriers, rfl⟩ := Option.map_eq_some_iff.mp htrimmed
      rw [← pure_eq_ok.mp h, (sortTexts_perm _).length_eq, List.length_map, hcarriers]
      rfl
  · exact (throw_ne_ok.mp h).elim

theorem severalCarriers_step (h : SeveralCarriers store) (hseveral : Several event) :
    SeveralCarriers (store.step event) := by
  intro key row hrow hpackage units hunits
  have hchange := (changes store event).receipt key
  rw [hrow] at hchange
  cases hold : store.receipts.get? key with
  | some old =>
    rw [hold] at hchange
    cases hchange with
    | kept => exact h key _ hold hpackage units hunits
  | none =>
    rw [hold] at hchange
    cases hchange with
    | inserted action object facts hcall =>
      rw [length_frozen hunits]
      exact hseveral action object hcall hpackage

theorem severalCarriers_run (events : List (CarrierEvent host)) (h : ∀ event ∈ events, Several event) :
    SeveralCarriers (after events) := by
  refine runAll_induct SeveralCarriers (fun _ _ h => severalCarriers_step h) events
    (fun k row h => ?_) (admits_of_forall fun event hevent _ => h event hevent)
  rw [empty, OrderedMap.get?_empty] at h
  exact nomatch h

theorem mem_receiptsOf {row : CarrierReceiptRow} : row ∈ store.receiptsOf host k ↔
    ∃ key, store.receipts.get? key = some row ∧ key.1 = k.1 ∧ row.aggregateKey = k.2 := by
  rw [receiptsOf, (List.perm_insertionSort _ _).mem_iff, List.mem_map]
  constructor
  · rintro ⟨⟨key, row'⟩, hmem, rfl⟩
    obtain ⟨hentry, hkey⟩ := List.mem_filter.mp hmem
    exact ⟨key, OrderedMap.get?_eq_some.mpr hentry, of_decide_eq_true hkey⟩
  · rintro ⟨key, hget, hkey⟩
    exact ⟨(key, row), List.mem_filter.mpr ⟨OrderedMap.get?_eq_some.mp hget, by simpa using hkey⟩,
      rfl⟩

/-- **Receipts of distinct carriers stand in one order.** -/
theorem receiptsOf_ext (hrecorded : Recorded store) (hrecorded' : Recorded store')
    (hnodup : ((store.receiptsOf host k).map (·.carrier)).Nodup)
    (hnodup' : ((store'.receiptsOf host k).map (·.carrier)).Nodup)
    (hsame : ∀ row, row ∈ store.receiptsOf host k ↔ row ∈ store'.receiptsOf host k) :
    store.receiptsOf host k = store'.receiptsOf host k := by
  let le : CarrierReceiptRow → CarrierReceiptRow → Prop := fun a b =>
    host.collates a.carrierUnitId b.carrierUnitId = true
  have htotal : Std.Total le := ⟨fun a b => host.collates_total _ _⟩
  have htrans : IsTrans CarrierReceiptRow le := ⟨fun a b c => host.collates_trans _ _ _⟩
  have hsorted : ∀ s : CarrierCoordinator, (s.receiptsOf host k).Pairwise le :=
    fun s => List.pairwise_insertionSort le _
  have hantisymm : ∀ a b, a ∈ store.receiptsOf host k → b ∈ store'.receiptsOf host k →
      le a b → le b a → a = b := by
    intro a b ha hb hab hba
    obtain ⟨key, hget, -⟩ := mem_receiptsOf.mp ha
    obtain ⟨key', hget', -⟩ := mem_receiptsOf.mp hb
    have hcarrier : a.carrier = b.carrier := by
      rw [← (hrecorded key a hget).2, ← (hrecorded' key' b hget').2]
      exact host.collates_antisymm _ _ hab hba
    exact List.inj_on_of_nodup_map hnodup ha ((hsame b).mpr hb) hcarrier
  exact List.Perm.eq_of_pairwise hantisymm (hsorted store) (hsorted store')
    ((List.perm_ext_iff_of_nodup hnodup.of_map hnodup'.of_map).mpr hsame)

/-! ## What a run should keep -/

/-- The work is absent, or its receipts are being collected. -/
def Collecting (store : CarrierCoordinator) (k : WorkKey) : Prop :=
  ∀ row, store.works.get? k = some row → row.status = .collecting

/-- **The event makes the work ready**, with this row. -/
structure BecomesReady (events : List (CarrierEvent host)) (k : WorkKey) (row : WorkSettlementRow)
    (receipts : List CarrierReceiptRow) : Prop where
  intro ::
  split : ∃ before event rest, events = before ++ event :: rest ∧ Collecting (after before) k ∧
    (after (before ++ [event])).works.get? k = some row ∧ row.status ≠ .collecting ∧
    receipts = (after (before ++ [event])).receiptsOf host k

/-- The event hands the work's settlement out under the token. -/
def HandsTo (store : CarrierCoordinator) (event : CarrierEvent host) (k : WorkKey)
    (claimToken : String) : Prop :=
  ∃ claim ∈ store.handedOut event, claim.claimToken = claimToken ∧
    k = (claim.settlement.workspaceId, claim.aggregateKey)

/-- The event completes or releases the work's claim, under the token. -/
def ReportsOn (event : CarrierEvent host) (k : WorkKey) (claimToken : String) : Prop :=
  (∃ early, event.call = .markWorkSettled (.claim k.1 k.2 (some claimToken)) early) ∨
    ∃ retryAt, event.call = .markWorkSettlementFailed ⟨k.1, k.2, claimToken, retryAt⟩

/-- **A work settles once**, by exactly what its carriers delivered. -/
structure SettledOnce (events : List (CarrierEvent host)) : Prop where
  /-- A work becomes ready with one receipt for each carrier, and with their settlement. -/
  ready : ∀ k row receipts, BecomesReady events k row receipts → row.status = .ready ∧
    (receipts.map (·.carrier)).Perm row.carrierUnitIds ∧ ∃ ready, row.payload = some ready ∧
      ∀ packageBilling, ready.settlement.billingIdentity.packageBilling = some packageBilling →
        ∃ listed, ready.settlement.packagePartialDelivery = some ⟨listed⟩ ∧
          Delivers packageBilling receipts ready.action listed
  /-- The settlement is that of the receipts, in whichever order they came. -/
  order : ∀ k row receipts, BecomesReady events k row receipts →
    ∀ (events' : List (CarrierEvent host)) row' receipts', BecomesReady events' k row' receipts' →
      (∀ receipt, receipt ∈ receipts ↔ receipt ∈ receipts') → row'.payload = row.payload
  /-- It never changes, and a settled work stays settled. -/
  fixed : ∀ before rest k row, events = before ++ rest → (after before).works.get? k = some row →
    row.status ≠ .collecting → ∃ row', (after events).works.get? k = some row' ∧
      row'.payload = row.payload ∧ (row'.status = row.status ∨ row'.status = .settled)
  /-- A work is settled once it was ready. -/
  settled : ∀ before event rest k row, events = before ++ event :: rest →
    (after (before ++ [event])).works.get? k = some row → row.status = .settled →
      ∃ old, (after before).works.get? k = some old ∧
        (old.status = .ready ∨ old.status = .settled)
  /-- The outbox has a row for each work that is ready or settled, with its settlement. -/
  outbox : ∀ k, (∃ o, (after events).outbox.get? k = some o) ↔
    ∃ row, (after events).works.get? k = some row ∧ row.status ≠ .collecting
  carried : ∀ k row o, (after events).works.get? k = some row →
    (after events).outbox.get? k = some o →
      row.payload = some o.payload ∧ o.action = o.payload.action
  /-- A claim is taken from another only once the other's lease has run out. -/
  single : ∀ before event rest k claimToken, events = before ++ event :: rest →
    HandsTo (after before) event k claimToken → ∃ row, (after before).outbox.get? k = some row ∧
      (row.status = .processing →
        ∃ lease, row.leaseExpiresAt = some lease ∧ lease < event.now) ∧
      ∃ row', (after (before ++ [event])).outbox.get? k = some row' ∧
        row'.isClaimedBy claimToken = true
  /-- A worker whose claim was taken over changes nothing. -/
  fenced : ∀ before claim between claim' later event rest k claimToken claimToken',
    events = before ++ claim :: (between ++ claim' :: (later ++ event :: rest)) →
    HandsTo (after before) claim k claimToken →
    HandsTo (after (before ++ claim :: between)) claim' k claimToken' →
    ReportsOn event k claimToken →
      (after (before ++ claim :: (between ++ claim' :: later))).step event =
        after (before ++ claim :: (between ++ claim' :: later))

/-! ## It is kept -/

variable {row : WorkSettlementRow} {events : List (CarrierEvent host)}
  {receipts : List CarrierReceiptRow}

/-- **What made a work ready**: its receipts were reduced. -/
theorem BecomesReady.reduced (h : BecomesReady events k row receipts) :
    row.status = .ready ∧ ∃ ready, row.payload = some ready ∧
      reduceCarrierReceiptsForWork k.2 (sortTexts row.carrierUnitIds) receipts =
        .ok (some ready) := by
  obtain ⟨before, event, rest, -, hcollecting, hrow, hstatus, rfl⟩ := h
  rw [after, runAll_append, runAll_cons, runAll_nil] at hrow ⊢
  have hchange := (changes (after before) event).work k
  rw [hrow] at hchange
  generalize hwork : (after before).works.get? k = work at hchange
  generalize (after before).outbox.get? k = outbox at hchange
  generalize ((after before).step event).outbox.get? k = outbox' at hchange
  -- the row was collecting before, so only a reduction makes it another
  cases hchange with
  | kept => exact absurd (hcollecting row hwork) hstatus
  | opened _ _ hopened => exact absurd hopened hstatus
  | readied _ _ _ ready _ hready hpayload _ hreduce => exact ⟨hready, ready, hpayload, hreduce⟩
  | settled old _ _ hready => exact nomatch hready.symm.trans (hcollecting old hwork)
  | completed => exact absurd (hcollecting row hwork) hstatus
  | claimed => exact absurd (hcollecting row hwork) hstatus
  | failed => exact absurd (hcollecting row hwork) hstatus

theorem BecomesReady.receipts_eq (h : BecomesReady events k row receipts) :
    ∃ before rest, events = before ++ rest ∧ receipts = (after before).receiptsOf host k := by
  obtain ⟨before, event, rest, rfl, -, -, -, rfl⟩ := h
  exact ⟨before ++ [event], rest, by rw [List.append_assoc]; rfl, rfl⟩

/-- One receipt for each carrier. -/
theorem BecomesReady.perm (h : BecomesReady events k row receipts) :
    (receipts.map (·.carrier)).Nodup ∧
      (receipts.map (·.carrier)).Perm (sortTexts row.carrierUnitIds) := by
  obtain ⟨-, ready, -, hreduce⟩ := h.reduced
  obtain ⟨hlength, hnodup, hmem, -⟩ := reduce_eq_ok hreduce
  refine ⟨hnodup, (List.subperm_of_subset hnodup fun carrier hcarrier => ?_).perm_of_length_le
    (by rw [List.length_map, hlength])⟩
  obtain ⟨receipt, hreceipt, rfl⟩ := List.mem_map.mp hcarrier
  exact hmem receipt hreceipt

/-- The settlement of a work that is past collecting is kept. -/
theorem fixed_step (hagree : Agree store) (hrow : store.works.get? k = some row)
    (hstatus : row.status ≠ .collecting) (event : CarrierEvent host) :
    ∃ row', (store.step event).works.get? k = some row' ∧
      row'.payload = row.payload ∧ (row'.status = row.status ∨ row'.status = .settled) := by
  have hchange := (changes store event).work k
  have hrows := hagree k
  rw [hrow] at hchange hrows
  generalize hnew : (store.step event).works.get? k = new at hchange
  generalize store.outbox.get? k = outbox at hchange hrows
  generalize (store.step event).outbox.get? k = outbox' at hchange
  cases hchange with
  | kept | completed | claimed | failed => exact ⟨row, rfl, rfl, .inl rfl⟩
  | readied _ _ _ _ hwork =>
    rcases hwork row rfl with hcollecting | ⟨-, hnone⟩
    · exact absurd hcollecting hstatus
    · cases hrows with
      | collecting _ hcollecting => exact absurd hcollecting hstatus
      | ready _ _ _ hpayload => exact nomatch hpayload.symm.trans hnone
      | settled _ _ _ hpayload => exact nomatch hpayload.symm.trans hnone
  | settled => exact ⟨_, rfl, rfl, .inr rfl⟩

theorem fixed_run (rest : List (CarrierEvent host)) (hagree : Agree store)
    (hrow : store.works.get? k = some row) (hstatus : row.status ≠ .collecting) :
    ∃ row', (runAll step rest store).works.get? k = some row' ∧
      row'.payload = row.payload ∧ (row'.status = row.status ∨ row'.status = .settled) := by
  refine (runAll_invariant (fun s => Agree s ∧ ∃ row', s.works.get? k = some row' ∧
    row'.payload = row.payload ∧ (row'.status = row.status ∨ row'.status = .settled))
    (fun s event h => ⟨agree_step h.1 event, ?_⟩) rest ⟨hagree, row, hrow, rfl, .inl rfl⟩).2
  obtain ⟨hs, mid, hmid, hpayload, hmidStatus⟩ := h
  have hopen : mid.status ≠ .collecting := by
    rcases hmidStatus with heq | heq <;> rw [heq]
    · exact hstatus
    · nofun
  obtain ⟨row', hrow', hpayload', hstatus'⟩ := fixed_step hs hmid hopen event
  refine ⟨row', hrow', hpayload'.trans hpayload, ?_⟩
  rcases hstatus' with heq | heq
  · rw [heq]
    exact hmidStatus
  · exact .inr heq

/-- A row becomes settled only from one that is ready. -/
theorem settled_step (hrow : (store.step event).works.get? k = some row)
    (hstatus : row.status = .settled) : ∃ old, store.works.get? k = some old ∧
      (old.status = .ready ∨ old.status = .settled) := by
  have hchange := (changes store event).work k
  rw [hrow] at hchange
  generalize store.works.get? k = work at hchange
  generalize store.outbox.get? k = outbox at hchange
  generalize (store.step event).outbox.get? k = outbox' at hchange
  cases hchange with
  | kept | completed | claimed | failed => exact ⟨row, rfl, .inr hstatus⟩
  | opened _ _ hopened => exact nomatch hopened.symm.trans hstatus
  | readied _ _ _ _ _ hready => exact nomatch hready.symm.trans hstatus
  | settled old _ _ hready => exact ⟨old, rfl, .inl hready⟩

/-! ## Tokens -/

/-- No claim of the work stands under the token. -/
def TokenGone (k : WorkKey) (claimToken : String) (store : CarrierCoordinator) : Prop :=
  ∀ row, store.outbox.get? k = some row → row.claimToken ≠ some claimToken

variable {claimToken : String}

theorem tokenGone_step (h : TokenGone k claimToken store)
    (hother : event.claimToken? ≠ some claimToken) : TokenGone k claimToken (store.step event) := by
  intro row hrow
  have hchange := (changes store event).work k
  rw [hrow] at hchange
  generalize store.works.get? k = work at hchange
  generalize hold : store.outbox.get? k = outbox at hchange
  generalize (store.step event).works.get? k = work' at hchange
  -- a completed or released row has no token, a claimed one that of the event
  cases hchange with
  | kept | opened => exact h row hold
  | readied =>
    cases outbox with
    | none => nofun
    | some old => exact h old hold
  | settled _ _ _ _ houtbox =>
    rcases houtbox with heq | ⟨old, -, heq⟩
    · exact h row (hold.trans heq.symm)
    · obtain rfl := Option.some.inj heq
      nofun
  | completed => nofun
  | claimed _ old token _ _ _ hclaim =>
    rw [hclaim] at hother
    exact hother
  | failed _ _ _ _ _ htoken =>
    rw [htoken]
    nofun

/-- **A handed-out claim**: the row was ready, and stands under the token. -/
theorem row_of_handsTo (h : HandsTo store event k claimToken) :
    event.claimToken? = some claimToken ∧ ∃ row leaseMs, store.outbox.get? k = some row ∧
      row.isReady event.now = true ∧
      (store.step event).outbox.get? k = some (row.claim event.now claimToken leaseMs) := by
  obtain ⟨claim, hclaim, rfl, hkey⟩ := h
  obtain ⟨k', row, leaseMs, hrow, hready, htoken, hrow', hpayload, hkey'⟩ :=
    handsOut store event claim hclaim
  obtain rfl : k = k' := by
    rw [hkey, hkey', ← hpayload]
  exact ⟨htoken, row, leaseMs, hrow, hready, hrow'⟩

theorem normalize_claim {workspaceId aggregateKey : String} {claimToken : Option String}
    {normal : WorkKey × Option String}
    (h : normalizeWorkSettlementCompletion (.claim workspaceId aggregateKey claimToken) =
      .ok normal) : normal = ((workspaceId, aggregateKey), claimToken) := by
  rw [normalizeWorkSettlementCompletion, guard_eq_ok, bind_eq_ok] at h
  obtain ⟨-, named, -, h⟩ := h
  obtain ⟨-, h⟩ := guard_eq_ok.mp h
  obtain ⟨-, h⟩ := guard_eq_ok.mp h
  exact (pure_eq_ok.mp h).symm

/-- Under a token that is gone the outbox is left, and a work whose row is not completed refused. -/
theorem completeOutbox_gone (hgone : TokenGone k claimToken store) :
    Wp (completeOutbox k (some claimToken)) store (fun _ store' => store' = store ∧
      ∃ row, store.outbox.get? k = some row ∧ row.status = .completed) (fun _ _ => True) := by
  rw [completeOutbox, wp_bind, wp_get]
  cases hrow : store.outbox.get? k with
  | none =>
    rw [wp_throw]
    trivial
  | some row =>
    have hclaimed : ¬ row.isClaimedBy claimToken = true := by
      simp [OutboxRow.isClaimedBy, hgone row hrow]
    dsimp only
    rw [wp_ite, wp_ite, wp_throw, wp_pure]
    exact ⟨fun h => absurd h hclaimed, fun _ => ⟨fun _ => trivial,
      fun hcompleted => ⟨rfl, row, rfl, not_not.mp hcompleted⟩⟩⟩

/-- A work whose outbox row is completed was settled before. -/
theorem settleWork_of_completed {row : OutboxRow} (hagree : Agree store)
    (hrow : store.outbox.get? k = some row) (hcompleted : row.status = .completed) :
    settleWork k store = store := by
  rcases settleWork_cases k store with ⟨work, hwork, hready, -⟩ | ⟨-, heq⟩
  · have hrows := hagree k
    rw [hwork, hrow] at hrows
    cases hrows with
    | ready _ _ _ _ _ hopen => exact absurd hcompleted hopen
    | settled _ _ hsettled => exact nomatch hready.symm.trans hsettled
  · exact heq

/-- **A report under a token that is gone changes nothing.** -/
theorem step_of_tokenGone (hagree : Agree store) (hgone : TokenGone k claimToken store)
    (hreport : ReportsOn event k claimToken) : store.step event = store := by
  have hkept : Wp (perform event.now event.call) store (fun _ store' => store' = store)
      (fun _ store' => store' = store) := by
    rcases hreport with ⟨early, hcall⟩ | ⟨retryAt, hcall⟩
    · rw [hcall, perform, wp_bind, markWorkSettled, wp_bind, wp_check]
      refine ⟨?_, fun _ _ => rfl⟩
      rintro ⟨key, token⟩ hnormal
      obtain ⟨rfl, rfl⟩ := Prod.mk.inj (normalize_claim hnormal)
      dsimp only
      rw [wp_transaction, wp_ite]
      refine ⟨fun _ => ?_, fun hnot => absurd (.inl rfl) hnot⟩
      rw [wp_bind]
      refine (completeOutbox_gone hgone).mono (fun _ store' h => ?_) fun _ _ _ => rfl
      obtain ⟨rfl, row, hrow, hcompleted⟩ := h
      rw [wp_modify, wp_pure]
      exact settleWork_of_completed hagree hrow hcompleted
    · rw [hcall, perform, wp_bind, markWorkSettlementFailed]
      cases retryAt with
      | none => exact wp_throw _ |>.mpr rfl
      | some retryAt =>
        have hnone : (store.outbox.get? k).filter (·.isClaimedBy claimToken) = none := by
          refine Option.filter_eq_none_iff.mpr fun row hrow => ?_
          simp [OutboxRow.isClaimedBy, hgone row hrow]
        simp only [wp_bind, wp_get, hnone, wp_throw]
  exact wp_final.mp hkept

theorem fresh_of_nodup {before rest : List (CarrierEvent host)} {claim : CarrierEvent host}
    (hfresh : ((before ++ claim :: rest).filterMap (·.claimToken?)).Nodup)
    (hclaim : claim.claimToken? = some claimToken) :
    ∀ event ∈ rest, event.claimToken? ≠ some claimToken := by
  intro event hevent htoken
  rw [List.filterMap_append, List.filterMap_cons_some hclaim] at hfresh
  have hrest := (List.nodup_append.mp hfresh).2.1
  exact (List.nodup_cons.mp hrest).1 (List.mem_filterMap.mpr ⟨event, hevent, htoken⟩)

/-- **A token does not come back** to a work that another claim was handed. -/
theorem tokenGone_run {before between later : List (CarrierEvent host)}
    {claim claim' : CarrierEvent host} {token token' : String}
    (hother : ∀ event ∈ between ++ claim' :: later, event.claimToken? ≠ some token)
    (hclaim : HandsTo (after (before ++ claim :: between)) claim' k token') :
    TokenGone k token (after (before ++ claim :: (between ++ claim' :: later))) := by
  obtain ⟨htoken, _, _, -, -, hclaimed⟩ := row_of_handsTo hclaim
  -- the later claim stands under its own token, and none after it under the earlier one
  have hgone : TokenGone k token ((after (before ++ claim :: between)).step claim') := by
    intro row hrow heq
    obtain rfl := Option.some.inj (hclaimed.symm.trans hrow)
    have hsame : token' = token := Option.some.inj heq
    exact hother claim' (by simp) (hsame ▸ htoken)
  have hsplit : before ++ claim :: (between ++ claim' :: later) =
      (before ++ claim :: between) ++ claim' :: later := by simp
  rw [hsplit, after, runAll_append, runAll_cons]
  exact runAll_induct (TokenGone k token) (fun _ _ h => tokenGone_step h) later hgone
    (admits_of_forall fun event hevent _ => hother event (by simp [hevent]))

/-! ## The run -/

/-- The settlement of a package lists what its receipts deliver. -/
theorem BecomesReady.delivers (h : BecomesReady events k row receipts)
    (hseveral : ∀ event ∈ events, Several event) {ready : ReadyWorkSettlement}
    (hreduce : reduceCarrierReceiptsForWork k.2 (sortTexts row.carrierUnitIds) receipts =
      .ok (some ready)) {packageBilling : ExecutionPlanPackageBilling}
    (hpackage : ready.settlement.billingIdentity.packageBilling = some packageBilling) :
    ∃ listed, ready.settlement.packagePartialDelivery = some ⟨listed⟩ ∧
      Delivers packageBilling receipts ready.action listed := by
  refine delivers_of_reduce hreduce hpackage ?_
  -- the carriers of the receipt the settlement took its identity from
  obtain ⟨-, receipt, hreceipt, -, hidentity, hunits⟩ := ready_of_reduce hreduce
  obtain ⟨before, rest, rfl, rfl⟩ := h.receipts_eq
  obtain ⟨key, hget, -⟩ := mem_receiptsOf.mp hreceipt
  refine severalCarriers_run before (fun event hevent => hseveral event
    (List.mem_append_left _ hevent)) key receipt hget ?_ _ hunits
  rw [← hidentity, hpackage]
  rfl

/-- The same receipts are reduced to the same settlement. -/
theorem BecomesReady.payload_eq (h : BecomesReady events k row receipts)
    {events' : List (CarrierEvent host)} {row' : WorkSettlementRow}
    {receipts' : List CarrierReceiptRow} (h' : BecomesReady events' k row' receipts')
    (hsame : ∀ receipt, receipt ∈ receipts ↔ receipt ∈ receipts') : row'.payload = row.payload := by
  obtain ⟨-, ready, hpayload, hreduce⟩ := h.reduced
  obtain ⟨-, ready', hpayload', hreduce'⟩ := h'.reduced
  have hperm := h.perm
  have hperm' := h'.perm
  obtain ⟨before, rest, -, rfl⟩ := h.receipts_eq
  obtain ⟨before', rest', -, rfl⟩ := h'.receipts_eq
  have hreceipts := receiptsOf_ext (recorded_run before) (recorded_run before') hperm.1 hperm'.1
    hsame
  have hcarriers : sortTexts row.carrierUnitIds = sortTexts row'.carrierUnitIds :=
    sortTexts_eq_of_perm ((sortTexts_perm _).symm.trans (hperm.2.symm.trans
      (hreceipts ▸ hperm'.2.trans (sortTexts_perm _))))
  rw [hreceipts, hcarriers, hreduce'] at hreduce
  rw [hpayload, hpayload', Option.some.inj (Except.ok.inj hreduce)]

/-- **A work settles once**, when each package has two carriers or more and no two claims have one
token. -/
theorem settledOnce_run (events : List (CarrierEvent host))
    (hfresh : (events.filterMap (·.claimToken?)).Nodup)
    (hseveral : ∀ event ∈ events, Several event) : SettledOnce events where
  ready := by
    intro k row receipts h
    obtain ⟨hstatus, ready, hpayload, hreduce⟩ := h.reduced
    exact ⟨hstatus, h.perm.2.trans (sortTexts_perm _), ready, hpayload, fun _ hpackage =>
      h.delivers hseveral hreduce hpackage⟩
  order k row receipts h _ _ _ h' hsame := h.payload_eq h' hsame
  fixed := by
    rintro before rest k row rfl hrow hstatus
    rw [after, runAll_append]
    exact fixed_run rest (carriersAgree_run before) hrow hstatus
  settled := by
    rintro before event rest k row rfl hrow hstatus
    rw [after, runAll_append] at hrow
    exact settled_step hrow hstatus
  outbox := by
    intro k
    have hrows := carriersAgree_run events k
    generalize (after events).works.get? k = work at hrows ⊢
    generalize (after events).outbox.get? k = outbox at hrows ⊢
    cases hrows with
    | absent => simp
    | collecting row hstatus => simp [hstatus]
    | ready row o hstatus => simp [hstatus]
    | settled row o hstatus => simp [hstatus]
  carried := by
    intro k row o hrow ho
    have hrows := carriersAgree_run events k
    rw [hrow, ho] at hrows
    cases hrows with
    | ready _ _ _ hpayload haction => exact ⟨hpayload, haction⟩
    | settled _ _ _ hpayload haction => exact ⟨hpayload, haction⟩
  single := by
    rintro before event rest k claimToken rfl h
    obtain ⟨-, row, leaseMs, hrow, hready, hrow'⟩ := row_of_handsTo h
    refine ⟨row, hrow, fun hprocessing => ?_, _, by rw [after, runAll_append]; exact hrow', ?_⟩
    · cases hlease : row.leaseExpiresAt with
      | none => simp [OutboxRow.isReady, hprocessing, hlease] at hready
      | some lease => exact ⟨lease, rfl, by
          simpa [OutboxRow.isReady, hprocessing, hlease] using hready⟩
    · simp [OutboxRow.isClaimedBy, OutboxRow.claim]
  fenced := by
    rintro before claim between claim' later event rest k token token' rfl hclaim hclaim' hreport
    have hother := fresh_of_nodup hfresh (row_of_handsTo hclaim).1
    refine step_of_tokenGone (carriersAgree_run _)
      (tokenGone_run (fun event hevent => hother event ?_) hclaim') hreport
    simp only [List.mem_append, List.mem_cons] at hevent ⊢
    tauto

/-! ### A note and its copy -/

def noteAllocation : ExecutionPlanPackageBillingAllocation where
  carrierUnitId := "carrier-note"
  allocationId := "note-pages"
  carrier := .note
  deliveryUnits := 6
  creditCost := 60
  failureRefundsCredits := true
  operation := "note.generate"
  catalogModel := ⟨"note-model", "note-r1"⟩
  routeSnapshotRef := "route-note-r1"
  rightsRevisionRefs := ["rights-note-r1"]

/-- The allocation of the copy, of one unit. -/
def copyDocument : ExecutionPlanPackageBillingAllocation where
  carrierUnitId := "carrier-copy"
  allocationId := "copy-document"
  carrier := .copy
  deliveryUnits := 1
  creditCost := 17
  failureRefundsCredits := false
  operation := "copy.generate"
  catalogModel := ⟨"copy-model", "copy-r1"⟩
  routeSnapshotRef := "route-copy-r1"
  rightsRevisionRefs := ["rights-copy-r1"]

/-- The settlement of one carrier of a package. -/
def packageSettlement (allocations : List ExecutionPlanPackageBillingAllocation)
    (allocation : ExecutionPlanPackageBillingAllocation)
    (partialDelivery : Option PartialDeliveryBasis) : HarnessBillingSettlementInput where
  workspaceId := "salon"
  taskId := "workflow"
  billingTaskId := "task"
  billingIdentity := {
    workspaceId := "salon"
    taskId := "task"
    workId := "work"
    workflowId := "workflow"
    quoteRef := ⟨"quote", "1"⟩
    creditHoldOperationId := none
    creditUsageOperationId := none
    productUsageReservationId := none
    reservationId := "consume:task:task"
    carrierUnitId := some allocation.carrierUnitId
    carrierUnitIds := some (allocations.map (·.carrierUnitId))
    carrierBillableUnits := some allocation.deliveryUnits
    packageBilling := some ⟨"contract", allocations⟩
    planId := none
    planRevision := none
    snapshotHash := none }
  quoteId := "quote"
  quoteRevision := "1"
  partialDelivery

/-- The note is delivered but for a page, the copy is refunded; a worker is slow, and a second one
settles the work. -/
def packageEvents : List (CarrierEvent plainHost) :=
  let allocations := [noteAllocation, copyDocument]
  [⟨0, .recordCarrierTerminal .commit
      (.ofInput _ (packageSettlement allocations noteAllocation (some ⟨6, 5⟩)))⟩,
    ⟨1, .recordCarrierTerminal .refund
      (.ofInput _ (packageSettlement allocations copyDocument none))⟩,
    ⟨2, .claimReadyWorkSettlements "first" (fun _ => 0) 20 none⟩,
    ⟨60000003, .claimReadyWorkSettlements "second" (fun _ => 0) 20 none⟩]

/-- The run of a package of two. -/
theorem settledOnce_run_package : SettledOnce packageEvents :=
  settledOnce_run packageEvents (by decide) (by simp [packageEvents, Several, packageSettlement,
    SettlementObject.ofInput])

/-- **A package of one carrier is not listed**: its receipt stands for the work as it is. -/
theorem not_settledOnce_run : ¬ ∀ events : List (CarrierEvent plainHost),
    (events.filterMap (·.claimToken?)).Nodup → SettledOnce events := by
  intro h
  let input := packageSettlement [copyDocument] copyDocument none
  let event : CarrierEvent plainHost := ⟨0, .recordCarrierTerminal .commit (.ofInput _ input)⟩
  let k : WorkKey := ("salon", input.billingIdentity.workSettlementKey.toOption.getD "")
  have hread : ((after [event]).works.get? k).map (fun row => (row.status,
      row.payload.map fun ready => (ready.settlement.packagePartialDelivery,
        ready.settlement.billingIdentity.packageBilling))) =
      some (.ready, some (none, some ⟨"contract", [copyDocument]⟩)) := by
    decide +kernel
  obtain ⟨row, hrow, hfacts⟩ := Option.map_eq_some_iff.mp hread
  obtain ⟨hstatus, hpayload⟩ := Prod.mk.inj hfacts
  have hcollecting : Collecting (after ([] : List (CarrierEvent plainHost))) k := by
    intro row hrow
    rw [after, runAll_nil, empty, OrderedMap.get?_empty] at hrow
    cases hrow
  obtain ⟨-, -, ready, hready, hlisted⟩ := (h [event] (by simp [event, CarrierEvent.claimToken?])).ready
    k row _ ⟨[], event, [], rfl, hcollecting, hrow, by rw [hstatus]; rintro ⟨⟩, rfl⟩
  rw [hready, Option.map_some, Option.some.injEq, Prod.mk.injEq] at hpayload
  obtain ⟨listed, hlist, -⟩ := hlisted _ hpayload.2
  cases hlist.symm.trans hpayload.1

end CarrierCoordinator

end MeiyeAgent
