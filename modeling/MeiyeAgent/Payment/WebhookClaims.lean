import MeiyeAgent.Payment.WebhookInbox

/-!
# Payment/WebhookClaims — what holds between two steps of the handlers and workers

`WebhookInvariant` is what the log says of the tables and what each process may rely on; `HoldsBut`
is the same of all processes but one, while that one is under way.

* `HoldsBut.put`, `HoldsBut.turn` — the one takes its place again.
* `HoldsBut.note`, `HoldsBut.update` — an entry is noted, a row is another.
-/

namespace MeiyeAgent

open PostgresPaymentWebhookInbox

/-! ## Laws -/

section Laws

/-- The row of a delivery is completed. -/
def Done (tables : WebhookTables) (delivery : PaymentWebhookDelivery) : Prop :=
  ∃ row, tables.outbox delivery = some row ∧ row.status = .completed

/-- The claim a process is at work under. -/
def WebhookPhase.claim : WebhookPhase → Option PaymentWebhookClaim
  | .applying claim | .checkpointing claim _ | .settling claim _ | .completing claim
  | .retrying claim _ => some claim
  | .receiving _ | .claiming | .ended _ => none

/-- Under the token there was a call of `settle`, or no event to settle. -/
def Returned (log : List WebhookEntry) (delivery : PaymentWebhookDelivery) (token : String) :
    Prop :=
  (∃ event, .settling delivery token event ∈ log) ∨ .claimed delivery token (some none) ∈ log ∨
    .checkpointed delivery token none ∈ log

/-- **A webhook is acknowledged once it is settled**, and settled once. -/
structure WebhooksHold (s : WebhookState) : Prop where
  /-- a delivery is answered with success once its row is completed -/
  acknowledged : ∀ delivery receipt, .answered delivery receipt ∈ s.log → Done s.tables delivery
  /-- a row is completed once it was settled -/
  settled : ∀ delivery, Done s.tables delivery → ∃ token, .settled delivery token ∈ s.log
  /-- a webhook is settled once `settle` was called for it, or where there is no event -/
  returned : ∀ delivery token, .settled delivery token ∈ s.log → Returned s.log delivery token
  /-- a row has one holder -/
  held : ∀ i j p q claim claim', s.processes i = some p → s.processes j = some q →
    p.phase.claim = some claim → q.phase.claim = some claim' →
    (heldRow s.tables claim).isSome → (heldRow s.tables claim').isSome →
    claim.toPaymentWebhookDelivery = claim'.toPaymentWebhookDelivery → i = j
  /-- a claim that follows a checkpoint has its event -/
  later : s.log.Pairwise fun earlier entry => ∀ delivery token event token' applied,
    earlier = .checkpointed delivery token event → entry = .claimed delivery token' applied →
      applied = some event
  /-- a claim that has an event is not applied, and settles no other -/
  stored : ∀ delivery token event, .claimed delivery token (some event) ∈ s.log →
    .applying token ∉ s.log ∧
      ∀ delivery' event', .settling delivery' token event' ∈ s.log → event = some event'
  /-- what is settled is of its delivery -/
  identity : ∀ delivery token event, .settling delivery token event ∈ s.log →
    event.delivery = delivery
  /-- a row that is not completed can be claimed once its lease or its delay has passed -/
  due : ∀ delivery row, s.tables.outbox delivery = some row → row.status ≠ .completed →
    ∃ due, (if row.status = .processing then row.leaseExpiresAt = some due
        else row.availableAt = due) ∧
      ∀ now token, due ≤ now → ∃ claim tables,
        claimNext s.tables delivery token now = some (claim, tables)

/-- **A step changes a row** only under the claim that holds it, or by a claim that is due. -/
structure ChangesOwn (s : WebhookState) (i : Nat) (move : WebhookMove) : Prop where
  own : ∀ delivery row, s.tables.outbox delivery = some row →
    (s.step (i, move)).tables.outbox delivery = some row ∨
      (∃ process claim, s.processes i = some process ∧ process.phase.claim = some claim ∧
        claim.toPaymentWebhookDelivery = delivery ∧ heldRow s.tables claim = some row) ∨
      (∃ fate now token, move = .claim fate now token (some delivery) ∧ claimable row now = true)
  completed : ∀ delivery row, s.tables.outbox delivery = some row → row.status = .completed →
    (s.step (i, move)).tables.outbox delivery = some row

/-- The token of a claim is new. -/
def FreshToken (s : WebhookState) : Nat × WebhookMove → Prop
  | (_, .claim _ _ token _) => ∀ delivery applied, .claimed delivery token applied ∉ s.log
  | _ => True

end Laws

/-! ## What holds of the tables and of a process -/

section Sound

/-- What the log says of the tables. -/
structure Logged (tables : WebhookTables) (log : List WebhookEntry) : Prop where
  unique : ∀ d d' token a a', .claimed d token a ∈ log → .claimed d' token a' ∈ log →
    d = d' ∧ a = a'
  rows : ∀ d row, tables.outbox d = some row → row.status = .processing →
    ∃ token lease a, row.claimToken = some token ∧ row.leaseExpiresAt = some lease ∧
      .claimed d token a ∈ log
  done : ∀ d, Done tables d → ∃ token, .settled d token ∈ log
  answered : ∀ d receipt, .answered d receipt ∈ log → Done tables d
  checkpointed : ∀ d token event, .checkpointed d token event ∈ log →
    ∃ row, tables.outbox d = some row ∧ row.applied = some event
  later : log.Pairwise fun earlier entry => ∀ d token event token' applied,
    earlier = .checkpointed d token event → entry = .claimed d token' applied →
      applied = some event
  stored : ∀ d token event, .claimed d token (some event) ∈ log → .applying token ∉ log ∧
    ∀ d' event', .settling d' token event' ∈ log → event = some event'
  identity : ∀ d token event, .settling d token event ∈ log → event.delivery = d
  tokens : ∀ token, (.applying token ∈ log ∨ ∃ d event, .settling d token event ∈ log) →
    ∃ d a, .claimed d token a ∈ log
  returned : ∀ d token, .settled d token ∈ log → Returned log d token
  events : ∀ d row, tables.outbox d = some row → (tables.events d).isSome
  processed : ∀ d row, tables.events d = some row → row.status = .processed → Done tables d

/-- What holds of a process. -/
structure WebhookProcess.Sound (tables : WebhookTables) (log : List WebhookEntry)
    (process : WebhookProcess) : Prop where
  logged : ∀ claim, process.phase.claim = some claim →
    .claimed claim.toPaymentWebhookDelivery claim.claimToken claim.appliedEvent ∈ log
  own : ∀ d claim, process.delivery = some d → process.phase.claim = some claim →
    claim.toPaymentWebhookDelivery = d
  received : ∀ event, process.phase = .receiving event →
    process.delivery = some event.toPaymentWebhookDelivery ∧ process.receipt = none ∧
      process.completed = 0
  unapplied : ∀ claim, (process.phase = .applying claim ∨
      ∃ event, process.phase = .checkpointing claim event) →
    claim.appliedEvent = none ∧ ∀ row, heldRow tables claim = some row → row.applied = none
  identified : ∀ claim event, process.phase = .checkpointing claim (some event) →
    event.delivery = claim.toPaymentWebhookDelivery
  settling : ∀ claim event, process.phase = .settling claim event →
    .settling claim.toPaymentWebhookDelivery claim.claimToken event ∈ log
  settled : ∀ claim, process.phase = .completing claim →
    .settled claim.toPaymentWebhookDelivery claim.claimToken ∈ log
  counted : ∀ d, process.delivery = some d →
    (process.receipt = some .processed ∨ 0 < process.completed) → Done tables d
  busy : process.receipt ≠ some .busy

structure WebhookInvariant (s : WebhookState) : Prop where
  logged : Logged s.tables s.log
  sound : ∀ i process, s.processes i = some process → process.Sound s.tables s.log
  distinct : ∀ i j p q claim claim', s.processes i = some p → s.processes j = some q →
    p.phase.claim = some claim → q.phase.claim = some claim' →
    claim.claimToken = claim'.claimToken → i = j

/-- What holds of the tables and of all processes but one, whose token no other has. -/
structure HoldsBut (i : Nat) (token : Option String) (s : WebhookState) : Prop where
  logged : Logged s.tables s.log
  sound : ∀ j process, j ≠ i → s.processes j = some process → process.Sound s.tables s.log
  distinct : ∀ j k p q claim claim', j ≠ i → k ≠ i → s.processes j = some p →
    s.processes k = some q → p.phase.claim = some claim → q.phase.claim = some claim' →
    claim.claimToken = claim'.claimToken → j = k
  other : ∀ j process claim, j ≠ i → s.processes j = some process →
    process.phase.claim = some claim → some claim.claimToken ≠ token

variable {s : WebhookState} {i : Nat} {process process' : WebhookProcess}
  {token : Option String} {claim : PaymentWebhookClaim} {delivery : PaymentWebhookDelivery}

theorem WebhookState.put_self : (s.put i process).processes i = some process :=
  Function.update_self ..

theorem WebhookState.put_of_ne {j : Nat} (h : j ≠ i) :
    (s.put i process).processes j = s.processes j := Function.update_of_ne h ..

theorem HoldsBut.of_invariant (h : WebhookInvariant s) (hprocess : s.processes i = some process) :
    HoldsBut i (process.phase.claim.map (·.claimToken)) s where
  logged := h.logged
  sound j q _ hq := h.sound j q hq
  distinct j k p q c c' _ _ := h.distinct j k p q c c'
  other j q c hne hq hc hsome := by
    obtain ⟨c', hc', htoken⟩ := Option.map_eq_some_iff.mp hsome.symm
    exact hne (h.distinct j i q process c c' hq hprocess hc hc' htoken.symm)

theorem HoldsBut.of_none (h : WebhookInvariant s) (i : Nat) : HoldsBut i none s where
  logged := h.logged
  sound j q _ hq := h.sound j q hq
  distinct j k p q c c' _ _ := h.distinct j k p q c c'
  other _ _ _ _ _ _ hsome := nomatch hsome

/-- A process that is sound under the token takes its place again. -/
theorem HoldsBut.put (h : HoldsBut i token s) (hsound : process.Sound s.tables s.log)
    (htoken : ∀ claim, process.phase.claim = some claim → token = some claim.claimToken) :
    WebhookInvariant (s.put i process) where
  logged := h.logged
  sound j q hq := by
    by_cases hj : j = i
    · subst hj
      rw [WebhookState.put_self, Option.some.injEq] at hq
      exact hq ▸ hsound
    · rw [WebhookState.put_of_ne hj] at hq
      exact h.sound j q hj hq
  distinct j k p q c c' hp hq hc hc' heq := by
    by_cases hj : j = i
    · subst hj
      rw [WebhookState.put_self, Option.some.injEq] at hp
      by_cases hk : k = j
      · exact hk.symm
      · rw [WebhookState.put_of_ne hk] at hq
        rw [← hp] at hc
        exact absurd (heq ▸ (htoken c hc).symm) (h.other k q c' hk hq hc')
    · rw [WebhookState.put_of_ne hj] at hp
      by_cases hk : k = i
      · subst hk
        rw [WebhookState.put_self, Option.some.injEq] at hq
        rw [← hq] at hc'
        exact absurd (heq ▸ (htoken c' hc').symm) (h.other j p c hj hp hc)
      · rw [WebhookState.put_of_ne hk] at hq
        exact h.distinct j k p q c c' hj hk hp hq hc hc' heq

/-- A token that is new is no other's. -/
theorem HoldsBut.fresh (h : HoldsBut i token s) {new : String}
    (hnew : ∀ delivery applied, .claimed delivery new applied ∉ s.log) :
    HoldsBut i (some new) s where
  logged := h.logged
  sound := h.sound
  distinct := h.distinct
  other j q c hj hq hc heq := by
    refine hnew c.toPaymentWebhookDelivery c.appliedEvent ?_
    rw [← Option.some.inj heq]
    exact (h.sound j q hj hq).logged c hc

/-- What a longer log and other rows leave a process. -/
theorem WebhookProcess.Sound.mono {tables tables' : WebhookTables} {log log' : List WebhookEntry}
    (h : process.Sound tables log) (hlog : log ⊆ log')
    (hdone : ∀ d, Done tables d → Done tables' d)
    (hheld : ∀ claim row, process.phase.claim = some claim → heldRow tables' claim = some row →
      ∃ old, heldRow tables claim = some old ∧ old.applied = row.applied) :
    process.Sound tables' log' where
  logged c hc := hlog (h.logged c hc)
  own := h.own
  received := h.received
  unapplied c hphase := by
    obtain ⟨hnone, hrows⟩ := h.unapplied c hphase
    refine ⟨hnone, fun row hrow => ?_⟩
    have hc : process.phase.claim = some c := by
      rcases hphase with hphase | ⟨event, hphase⟩ <;> rw [hphase] <;> rfl
    obtain ⟨old, hold, happlied⟩ := hheld c row hc hrow
    rw [← happlied, hrows old hold]
  identified := h.identified
  settling c event hc := hlog (h.settling c event hc)
  settled c hc := hlog (h.settled c hc)
  counted d hd hcount := hdone d (h.counted d hd hcount)
  busy := h.busy

/-! ### Rows and entries -/

variable {tables : WebhookTables} {log : List WebhookEntry} {row : WebhookOutboxRow}

theorem Returned.mono {log log' : List WebhookEntry} {token : String}
    (h : Returned log delivery token) (hlog : log ⊆ log') : Returned log' delivery token :=
  h.imp (fun ⟨event, hmem⟩ => ⟨event, hlog hmem⟩)
    (Or.imp (fun hmem => hlog hmem) fun hmem => hlog hmem)

theorem done_update {row : WebhookOutboxRow} (hkeep : ∀ old, tables.outbox delivery = some old →
      old.status = .completed → row.status = .completed) (d : PaymentWebhookDelivery)
    (h : Done tables d) :
    Done { tables with outbox := Function.update tables.outbox delivery (some row) } d := by
  obtain ⟨old, hold, hcompleted⟩ := h
  by_cases hd : d = delivery
  · subst hd
    exact ⟨row, Function.update_self .., hkeep old hold hcompleted⟩
  · exact ⟨old, (Function.update_of_ne hd ..).trans hold, hcompleted⟩

/-- **One row is another.** -/
theorem Logged.update (h : Logged tables log) (hevent : (tables.events delivery).isSome)
    (hrow : row.status = .processing → ∃ token lease a, row.claimToken = some token ∧
      row.leaseExpiresAt = some lease ∧ .claimed delivery token a ∈ log)
    (hdone : row.status = .completed → ∃ token, .settled delivery token ∈ log)
    (hkeep : ∀ old, tables.outbox delivery = some old →
      (old.status = .completed → row.status = .completed) ∧
        ∀ event, old.applied = some event → row.applied = some event) :
    Logged { tables with outbox := Function.update tables.outbox delivery (some row) } log := by
  have hcases : ∀ {d : PaymentWebhookDelivery} {r : WebhookOutboxRow},
      Function.update tables.outbox delivery (some row) d = some r →
        (d = delivery ∧ r = row) ∨ (d ≠ delivery ∧ tables.outbox d = some r) := by
    intro d r hr
    by_cases hd : d = delivery
    · subst hd
      rw [Function.update_self, Option.some.injEq] at hr
      exact .inl ⟨rfl, hr.symm⟩
    · rw [Function.update_of_ne hd] at hr
      exact .inr ⟨hd, hr⟩
  have hdone' := done_update fun old hold => (hkeep old hold).1
  refine { h with rows := ?_, done := ?_, answered := ?_, checkpointed := ?_, events := ?_,
                  processed := ?_ }
  · intro d r hr hstatus
    rcases hcases hr with ⟨rfl, rfl⟩ | ⟨-, hold⟩
    · exact hrow hstatus
    · exact h.rows d r hold hstatus
  · rintro d ⟨r, hr, hstatus⟩
    rcases hcases hr with ⟨rfl, rfl⟩ | ⟨-, hold⟩
    · exact hdone hstatus
    · exact h.done d ⟨r, hold, hstatus⟩
  · exact fun d receipt hmem => hdone' d (h.answered d receipt hmem)
  · intro d token event hmem
    obtain ⟨old, hold, happlied⟩ := h.checkpointed d token event hmem
    by_cases hd : d = delivery
    · subst hd
      exact ⟨row, Function.update_self .., (hkeep old hold).2 event happlied⟩
    · exact ⟨old, (Function.update_of_ne hd ..).trans hold, happlied⟩
  · intro d r hr
    rcases hcases hr with ⟨rfl, -⟩ | ⟨-, hold⟩
    · exact hevent
    · exact h.events d r hold
  · exact fun d r hr hstatus => hdone' d (h.processed d r hr hstatus)

/-- One event row is another, processed only where the delivery is done. -/
theorem Logged.updateEvent (h : Logged tables log) {eventRow : WebhookEventRow}
    (hprocessed : eventRow.status = .processed → Done tables delivery) :
    Logged { tables with
      events := Function.update tables.events delivery (some eventRow) } log := by
  refine { h with events := ?_, processed := ?_ }
  · intro d r hr
    change (Function.update tables.events delivery (some eventRow) d).isSome = true
    by_cases hd : d = delivery
    · rw [hd, Function.update_self]
      rfl
    · rw [Function.update_of_ne hd]
      exact h.events d r hr
  · intro d r hr hstatus
    change Function.update tables.events delivery (some eventRow) d = some r at hr
    by_cases hd : d = delivery
    · rw [hd, Function.update_self, Option.some.injEq] at hr
      subst hd hr
      exact hprocessed hstatus
    · rw [Function.update_of_ne hd] at hr
      exact h.processed d r hr hstatus

/-- What one more entry has to meet. -/
def Notable (tables : WebhookTables) (log : List WebhookEntry) : WebhookEntry → Prop
  | .claimed d token a => (∀ d' a', .claimed d' token a' ∉ log) ∧
      ∀ token' event, .checkpointed d token' event ∈ log → a = some event
  | .applying token => ∃ d, .claimed d token none ∈ log
  | .checkpointed d _ event => ∃ row, tables.outbox d = some row ∧ row.applied = some event
  | .settling d token event => event.delivery = d ∧ ∃ d' a, .claimed d' token a ∈ log ∧
      ∀ event', a = some event' → event' = some event
  | .settled d token => Returned log d token
  | .answered d _ => Done tables d

/-- **One more entry.** -/
theorem Logged.note (h : Logged tables log) {entry : WebhookEntry}
    (hnotable : Notable tables log entry) : Logged tables (log ++ [entry]) := by
  have hlift : ∀ {other : WebhookEntry}, other ∈ log → other ∈ log ++ [entry] :=
    fun hmem => List.mem_append_left _ hmem
  have hcases : ∀ {other : WebhookEntry}, other ∈ log ++ [entry] → other ∈ log ∨ entry = other :=
    fun hmem => (List.mem_append.mp hmem).imp_right fun h => (List.mem_singleton.mp h).symm
  refine { unique := ?_, rows := ?_, done := ?_, answered := ?_, checkpointed := ?_, later := ?_,
           stored := ?_, identity := ?_, tokens := ?_, returned := ?_, events := h.events,
           processed := h.processed }
  · intro d d' token a a' hmem hmem'
    rcases hcases hmem with hold | rfl
    · rcases hcases hmem' with hold' | rfl
      · exact h.unique d d' token a a' hold hold'
      · exact absurd hold (hnotable.1 d a)
    · rcases hcases hmem' with hold' | heq
      · exact absurd hold' (hnotable.1 d' a')
      · exact WebhookEntry.claimed.inj heq |>.imp id And.right
  · intro d row hrow hstatus
    obtain ⟨token, lease, a, htoken, hlease, hmem⟩ := h.rows d row hrow hstatus
    exact ⟨token, lease, a, htoken, hlease, hlift hmem⟩
  · intro d hdone
    obtain ⟨token, hmem⟩ := h.done d hdone
    exact ⟨token, hlift hmem⟩
  · intro d receipt hmem
    rcases hcases hmem with hmem | rfl
    · exact h.answered d receipt hmem
    · exact hnotable
  · intro d token event hmem
    rcases hcases hmem with hmem | rfl
    · exact h.checkpointed d token event hmem
    · exact hnotable
  · refine List.pairwise_append.mpr ⟨h.later, List.pairwise_singleton _ _, ?_⟩
    intro earlier hearlier other hother d token event token' a heq heq'
    rw [List.mem_singleton.mp hother] at heq'
    subst heq heq'
    exact hnotable.2 token event hearlier
  · intro d token event hmem
    rcases hcases hmem with hold | rfl
    · obtain ⟨hnot, hsettling⟩ := h.stored d token event hold
      refine ⟨fun happlying => ?_, fun d' event' hsettle => ?_⟩
      · rcases hcases happlying with hin | rfl
        · exact hnot hin
        · obtain ⟨d', hnone⟩ := hnotable
          exact absurd (h.unique d d' token _ _ hold hnone).2 (Option.some_ne_none _)
      · rcases hcases hsettle with hin | rfl
        · exact hsettling d' event' hin
        · obtain ⟨-, d'', a, hclaimed, ha⟩ := hnotable
          exact ha event (h.unique d d'' token _ _ hold hclaimed).2.symm
    · refine ⟨fun happlying => ?_, fun d' event' hsettle => ?_⟩
      · rcases hcases happlying with happlying | heq
        · obtain ⟨d', a, hclaimed⟩ := h.tokens token (.inl happlying)
          exact absurd hclaimed (hnotable.1 d' a)
        · exact nomatch heq
      · rcases hcases hsettle with hsettle | heq
        · obtain ⟨d'', a, hclaimed⟩ := h.tokens token (.inr ⟨d', event', hsettle⟩)
          exact absurd hclaimed (hnotable.1 d'' a)
        · exact nomatch heq
  · intro d token event hmem
    rcases hcases hmem with hmem | rfl
    · exact h.identity d token event hmem
    · exact hnotable.1
  · rintro token (hmem | ⟨d, event, hmem⟩)
    · rcases hcases hmem with hmem | rfl
      · obtain ⟨d, a, hclaimed⟩ := h.tokens token (.inl hmem)
        exact ⟨d, a, hlift hclaimed⟩
      · obtain ⟨d, hclaimed⟩ := hnotable
        exact ⟨d, none, hlift hclaimed⟩
    · rcases hcases hmem with hmem | rfl
      · obtain ⟨d, a, hclaimed⟩ := h.tokens token (.inr ⟨d, event, hmem⟩)
        exact ⟨d, a, hlift hclaimed⟩
      · obtain ⟨-, d', a, hclaimed, -⟩ := hnotable
        exact ⟨d', a, hlift hclaimed⟩
  · intro d token hmem
    rcases hcases hmem with hmem | rfl
    · exact (h.returned d token hmem).mono fun _ => hlift
    · exact Returned.mono hnotable fun _ => hlift

theorem HoldsBut.note (h : HoldsBut i token s) (entry : WebhookEntry)
    (hnotable : Notable s.tables s.log entry) : HoldsBut i token (s.note entry) where
  logged := h.logged.note hnotable
  sound j q hj hq := (h.sound j q hj hq).mono (List.subset_append_left ..) (fun _ h => h)
    fun _ row _ hrow => ⟨row, hrow, rfl⟩
  distinct := h.distinct
  other := h.other

/-- **The row of another claim than the others' is another.** -/
theorem HoldsBut.update (h : HoldsBut i token s) (hevent : (s.tables.events delivery).isSome)
    (hrow : row.status = .processing → row.claimToken = token ∧ ∃ token lease a,
      row.claimToken = some token ∧ row.leaseExpiresAt = some lease ∧
        .claimed delivery token a ∈ s.log)
    (hdone : row.status = .completed → ∃ token, .settled delivery token ∈ s.log)
    (hkeep : ∀ old, s.tables.outbox delivery = some old →
      (old.status = .completed → row.status = .completed) ∧
        ∀ event, old.applied = some event → row.applied = some event) :
    HoldsBut i token { s with
      tables.outbox := Function.update s.tables.outbox delivery (some row) } where
  logged := h.logged.update hevent (fun hstatus => (hrow hstatus).2) hdone hkeep
  sound j q hj hq := by
    refine (h.sound j q hj hq).mono (List.Subset.refl _)
      (done_update fun old hold => (hkeep old hold).1) fun c r hc hr => ?_
    obtain ⟨hget, hheld⟩ := Option.filter_eq_some_iff.mp hr
    by_cases hd : c.toPaymentWebhookDelivery = delivery
    · change Function.update s.tables.outbox delivery (some row) c.toPaymentWebhookDelivery =
        some r at hget
      rw [hd, Function.update_self, Option.some.injEq] at hget
      subst hget
      obtain ⟨hstatus, htoken⟩ := of_decide_eq_true hheld
      exact absurd (htoken.symm.trans (hrow hstatus).1) (h.other j q c hj hq hc)
    · change Function.update s.tables.outbox delivery (some row) c.toPaymentWebhookDelivery =
        some r at hget
      rw [Function.update_of_ne hd] at hget
      exact ⟨r, Option.filter_eq_some_iff.mpr ⟨hget, hheld⟩, rfl⟩
  distinct := h.distinct
  other := h.other

theorem HoldsBut.updateEvent (h : HoldsBut i token s) (eventRow : WebhookEventRow)
    (hprocessed : eventRow.status = .processed → Done s.tables delivery) :
    HoldsBut i token { s with
      tables.events := Function.update s.tables.events delivery (some eventRow) } where
  logged := h.logged.updateEvent hprocessed
  sound j q hj hq := (h.sound j q hj hq).mono (List.Subset.refl _) (fun _ h => h)
    fun _ row _ hrow => ⟨row, hrow, rfl⟩
  distinct := h.distinct
  other := h.other

end Sound

/-! ## A step -/

section Step

variable {s : WebhookState} {i : Nat} {process : WebhookProcess} {token : Option String}
  {claim : PaymentWebhookClaim} {tables : WebhookTables} {log : List WebhookEntry}

/-- What the counts of a process say. -/
def WebhookProcess.Counted (tables : WebhookTables) (process : WebhookProcess) : Prop :=
  (∀ d, process.delivery = some d →
    (process.receipt = some .processed ∨ 0 < process.completed) → Done tables d) ∧
  process.receipt ≠ some .busy

/-- A process may be at work under a claim. -/
def WebhookProcess.MayHold (process : WebhookProcess) (log : List WebhookEntry)
    (claim : PaymentWebhookClaim) : Prop :=
  .claimed claim.toPaymentWebhookDelivery claim.claimToken claim.appliedEvent ∈ log ∧
    ∀ d, process.delivery = some d → claim.toPaymentWebhookDelivery = d

theorem WebhookProcess.Sound.counts (h : process.Sound tables log) : process.Counted tables :=
  ⟨h.counted, h.busy⟩

theorem WebhookProcess.Sound.mayHold (h : process.Sound tables log)
    (hclaim : process.phase.claim = some claim) : process.MayHold log claim :=
  ⟨h.logged claim hclaim, fun d hd => h.own d claim hd hclaim⟩

theorem WebhookProcess.MayHold.note (h : process.MayHold log claim) (entry : WebhookEntry) :
    process.MayHold (log ++ [entry]) claim :=
  ⟨List.mem_append_left _ h.1, h.2⟩

/-- A process with no claim is sound by its counts. -/
theorem WebhookProcess.Counted.sound (h : process.Counted tables)
    (hclaim : process.phase.claim = none) (hreceiving : ∀ event, process.phase ≠ .receiving event) :
    process.Sound tables log := by
  have hnone : ∀ c, process.phase.claim ≠ some c := fun c hc => nomatch hclaim.symm.trans hc
  refine { logged := fun c hc => absurd hc (hnone c), own := fun d c _ hc => absurd hc (hnone c),
           received := fun event hphase => absurd hphase (hreceiving event)
           unapplied := fun c hphase => absurd ?_ (hnone c)
           identified := fun c event hphase => absurd ?_ (hnone c)
           settling := fun c event hphase => absurd ?_ (hnone c)
           settled := fun c hphase => absurd ?_ (hnone c)
           counted := h.1, busy := h.2 }
  · rcases hphase with hphase | ⟨event, hphase⟩ <;> rw [hphase] <;> rfl
  · rw [hphase]
    rfl
  · rw [hphase]
    rfl
  · rw [hphase]
    rfl

/-- A process at work under a claim is sound by its counts, its claim and its phase. -/
theorem WebhookProcess.Counted.sound_at (h : process.Counted tables) {phase : WebhookPhase}
    (hclaim : phase.claim = some claim) (hhold : process.MayHold log claim)
    (hunapplied : (phase = .applying claim ∨ ∃ event, phase = .checkpointing claim event) →
      claim.appliedEvent = none ∧ ∀ row, heldRow tables claim = some row → row.applied = none)
    (hidentified : ∀ event, phase = .checkpointing claim (some event) →
      event.delivery = claim.toPaymentWebhookDelivery)
    (hsettling : ∀ event, phase = .settling claim event →
      .settling claim.toPaymentWebhookDelivery claim.claimToken event ∈ log)
    (hsettled : phase = .completing claim →
      .settled claim.toPaymentWebhookDelivery claim.claimToken ∈ log) :
    ({ process with phase } : WebhookProcess).Sound tables log := by
  have heq : ∀ c, phase.claim = some c → c = claim :=
    fun c hc => Option.some.inj (hc.symm.trans hclaim)
  refine { logged := fun c hc => ?_, own := fun d c hd hc => ?_, received := fun event hphase => ?_
           unapplied := fun c hphase => ?_, identified := fun c event hphase => ?_
           settling := fun c event hphase => ?_, settled := fun c hphase => ?_
           counted := h.1, busy := h.2 }
  · rw [heq c hc]
    exact hhold.1
  · rw [heq c hc]
    exact hhold.2 d hd
  · change phase = .receiving event at hphase
    rw [hphase] at hclaim
    exact nomatch hclaim
  · have hc : c = claim := heq c (by
      rcases hphase with hphase | ⟨event, hphase⟩ <;> exact congrArg WebhookPhase.claim hphase)
    subst hc
    exact hunapplied hphase
  · have hc : c = claim := heq c (congrArg WebhookPhase.claim hphase)
    subst hc
    exact hidentified event hphase
  · have hc : c = claim := heq c (congrArg WebhookPhase.claim hphase)
    subst hc
    exact hsettling event hphase
  · have hc : c = claim := heq c (congrArg WebhookPhase.claim hphase)
    subst hc
    exact hsettled hphase

/-- A process ends. -/
theorem HoldsBut.drop (h : HoldsBut i token s) (hcounts : process.Counted s.tables)
    (answer : WebhookAnswer) : WebhookInvariant (s.drop i process answer) :=
  have hsound : ({ process with phase := .ended answer } : WebhookProcess).Sound s.tables s.log :=
    WebhookProcess.Counted.sound hcounts rfl fun _ hphase => nomatch hphase
  h.put hsound fun _ hc => nomatch hc

/-- A process is at work under a claim whose token no other has. -/
theorem HoldsBut.put_at (h : HoldsBut i (some claim.claimToken) s) (phase : WebhookPhase)
    (hclaim : phase.claim = some claim)
    (hsound : ({ process with phase } : WebhookProcess).Sound s.tables s.log) :
    WebhookInvariant (s.put i { process with phase }) :=
  h.put hsound fun c hc => by
    change phase.claim = some c at hc
    rw [Option.some.inj (hclaim.symm.trans hc)]

theorem HoldsBut.fail (h : HoldsBut i (some claim.claimToken) s)
    (hcounts : process.Counted s.tables) (hhold : process.MayHold s.log claim)
    (code : Option String) : WebhookInvariant (s.fail i process claim code) :=
  h.put_at _ rfl (hcounts.sound_at rfl hhold (by simp) (by simp) (by simp) (by simp))

/-- The last lap of a loop answers what the counts say. -/
theorem WebhookProcess.Counted.done_of_finish (h : process.Counted tables)
    {receipt : PaymentWebhookReceipt} (hfinish : process.finish = .receipt receipt)
    {delivery : PaymentWebhookDelivery} (hdelivery : process.delivery = some delivery) :
    Done tables delivery := by
  unfold finish at hfinish
  cases hreceipt : process.receipt with
  | none => simp [hreceipt] at hfinish
  | some own =>
    simp only [hreceipt] at hfinish
    split at hfinish
    · cases hfinish
    · rename_i hcounts
      obtain ⟨-, hcompleted⟩ := not_or.mp hcounts
      refine h.1 delivery hdelivery ?_
      cases own with
      | accepted => exact .inr (by
          have hone : process.completed = 1 := by simpa using hcompleted
          omega)
      | busy => exact absurd hreceipt h.2
      | processed => exact .inl hreceipt

/-- **A lap of the loop.** -/
theorem HoldsBut.turn (h : HoldsBut i token s) (hcounts : process.Counted s.tables) :
    WebhookInvariant (s.turn i process) := by
  have hidle : ∀ log, process.loop.Sound s.tables log := fun log => by
    have hloop : process.loop.Counted s.tables := hcounts
    refine hloop.sound ?_ ?_ <;> simp only [WebhookProcess.loop] <;> split <;>
      simp [WebhookPhase.claim]
  have hclaim : ∀ c, process.loop.phase.claim = some c → token = some c.claimToken := fun c hc => by
    simp only [WebhookProcess.loop] at hc
    split at hc <;> exact nomatch hc
  unfold WebhookState.turn
  dsimp only
  split
  · next delivery receipt hdelivery hphase =>
    change process.delivery = some delivery at hdelivery
    have hfinish : process.finish = .receipt receipt := by
      simp only [WebhookProcess.loop] at hphase
      split at hphase
      · exact WebhookPhase.ended.inj hphase
      · cases hphase
    have hnoted : HoldsBut i token (s.note (.answered delivery receipt)) :=
      h.note _ (hcounts.done_of_finish hfinish hdelivery)
    exact hnoted.put (hidle _) hclaim
  · exact h.put (hidle _) hclaim

end Step

end MeiyeAgent
