import MeiyeAgent.Payment.WebhookClaims

/-!
# Payment/SettledWebhooks — a webhook is acknowledged once it is settled

* `webhookInvariant_step`, `webhookInvariant_run` — the invariant under every step of every run.
* `changesOwn` — a step changes the row of its own claim, or of one that is due.
* `webhooksHold` — the laws of every run.
-/

namespace MeiyeAgent

open PostgresPaymentWebhookInbox

/-! ### What each call keeps -/

section Calls

variable {s : WebhookState} {i : Nat} {process : WebhookProcess} {token : Option String}
  {claim : PaymentWebhookClaim} {tables tables' : WebhookTables}

theorem WebhookProcess.Counted.mono (h : process.Counted tables)
    (hdone : ∀ d, Done tables d → Done tables' d) : process.Counted tables' :=
  ⟨fun d hd hcount => hdone d (h.1 d hd hcount), h.2⟩

variable {event : Option VerifiedPaymentWebhookEvent}

/-- **The event of a claim is known**: the stored one, where there is one. -/
theorem HoldsBut.onward (h : HoldsBut i (some claim.claimToken) s)
    (hcounts : process.Counted s.tables) (hhold : process.MayHold s.log claim)
    (hstored : ∀ stored, claim.appliedEvent = some stored → stored = event)
    (hunapplied : claim.appliedEvent = none →
      ∀ row, heldRow s.tables claim = some row → row.applied = none) :
    WebhookInvariant (s.onward i process claim event) := by
  unfold WebhookState.onward
  split
  · next event =>
    split
    · exact h.put_at _ rfl (hcounts.sound_at rfl hhold (by simp) (by simp) (by simp) (by simp))
    · rename_i hidentity
      split
      · have hnoted : HoldsBut i (some claim.claimToken)
            (s.note (.settling claim.toPaymentWebhookDelivery claim.claimToken event)) :=
          h.note _ ⟨not_not.mp hidentity, _, _, hhold.1, hstored⟩
        refine hnoted.put_at _ rfl (hcounts.sound_at rfl (hhold.note _) (by simp) (by simp) ?_
          (by simp))
        intro e he
        cases he
        exact List.mem_append_right _ List.mem_cons_self
      · rename_i hnone
        have hnone : claim.appliedEvent = none := by simpa using hnone
        refine h.put_at _ rfl (hcounts.sound_at rfl hhold (fun _ => ⟨hnone, hunapplied hnone⟩) ?_
          (by simp) (by simp))
        intro e he
        cases he
        exact not_not.mp hidentity
  · next stored happlied =>
    have hnoted : HoldsBut i (some claim.claimToken)
        (s.note (.settled claim.toPaymentWebhookDelivery claim.claimToken)) := by
      refine h.note _ (.inr (.inl ?_))
      rw [← hstored stored happlied, ← happlied]
      exact hhold.1
    exact hnoted.put_at _ rfl (hcounts.sound_at rfl (hhold.note _) (by simp) (by simp)
      (by simp) fun _ => List.mem_append_right _ List.mem_cons_self)
  · next hnone =>
    exact h.put_at _ rfl (hcounts.sound_at rfl hhold (fun _ => ⟨hnone, hunapplied hnone⟩) (by simp)
      (by simp) (by simp))

/-- The event is checkpointed. -/
theorem HoldsBut.checkpointed (h : HoldsBut i (some claim.claimToken) s)
    (hcounts : process.Counted s.tables) (hhold : process.MayHold s.log claim)
    (hnone : claim.appliedEvent = none)
    (hidentity : ∀ e, event = some e → e.delivery = claim.toPaymentWebhookDelivery)
    (hcheckpoint : .checkpointed claim.toPaymentWebhookDelivery claim.claimToken event ∈ s.log) :
    WebhookInvariant (s.checkpointed i process claim event) := by
  unfold WebhookState.checkpointed
  split
  · next event =>
    have hnoted : HoldsBut i (some claim.claimToken)
        (s.note (.settling claim.toPaymentWebhookDelivery claim.claimToken event)) :=
      h.note _ ⟨hidentity event rfl, _, _, hhold.1, fun e he => nomatch hnone.symm.trans he⟩
    refine hnoted.put_at _ rfl (hcounts.sound_at rfl (hhold.note _) (by simp) (by simp) ?_
      (by simp))
    intro e he
    cases he
    exact List.mem_append_right _ List.mem_cons_self
  · have hnoted : HoldsBut i (some claim.claimToken)
        (s.note (.settled claim.toPaymentWebhookDelivery claim.claimToken)) :=
      h.note _ (.inr (.inr hcheckpoint))
    exact hnoted.put_at _ rfl (hcounts.sound_at rfl (hhold.note _) (by simp) (by simp)
      (by simp) fun _ => List.mem_append_right _ List.mem_cons_self)

theorem heldRow_eq_some {row : WebhookOutboxRow} : heldRow tables claim = some row ↔
    tables.outbox claim.toPaymentWebhookDelivery = some row ∧ row.status = .processing ∧
      row.claimToken = some claim.claimToken := by
  simp [heldRow, Option.filter_eq_some_iff]

/-- **The held row is another.** -/
theorem HoldsBut.change (h : HoldsBut i (some claim.claimToken) s) {row : WebhookOutboxRow}
    (row' : WebhookOutboxRow)
    (hheld : heldRow s.tables claim = some row)
    (hrow : row'.status = .processing →
      row'.claimToken = row.claimToken ∧ row'.leaseExpiresAt = row.leaseExpiresAt)
    (hdone : row'.status = .completed →
      .settled claim.toPaymentWebhookDelivery claim.claimToken ∈ s.log)
    (happlied : ∀ event, row.applied = some event → row'.applied = some event) :
    HoldsBut i (some claim.claimToken) { s with
      tables.outbox := Function.update s.tables.outbox claim.toPaymentWebhookDelivery
        (some row') } ∧ ∀ d, Done s.tables d → Done { s.tables with
      outbox := Function.update s.tables.outbox claim.toPaymentWebhookDelivery (some row') } d := by
  obtain ⟨hget, hstatus, htoken⟩ := heldRow_eq_some.mp hheld
  have hkeep : ∀ old, s.tables.outbox claim.toPaymentWebhookDelivery = some old →
      (old.status = .completed → row'.status = .completed) ∧
        ∀ event, old.applied = some event → row'.applied = some event := by
    intro old hold
    obtain rfl := Option.some.inj (hold.symm.trans hget)
    exact ⟨fun hcompleted => absurd (hstatus.symm.trans hcompleted) nofun, happlied⟩
  refine ⟨h.update (h.logged.events _ _ hget) ?_ (fun hcompleted => ⟨_, hdone hcompleted⟩) hkeep,
    done_update fun old hold => (hkeep old hold).1⟩
  intro hprocessing
  obtain ⟨t, lease, a, ht, hlease, hmem⟩ := h.logged.rows _ _ hget hstatus
  obtain ⟨hsame, hlease'⟩ := hrow hprocessing
  exact ⟨hsame.trans htoken, t, lease, a, hsame.trans ht, hlease'.trans hlease, hmem⟩

/-- What `receive` leaves. -/
theorem HoldsBut.receive (h : HoldsBut i token s) (event : CanonicalPaymentWebhook) (now : Int) :
    HoldsBut i token
        { s with tables := (PostgresPaymentWebhookInbox.receive s.tables event now).2 } ∧
      (∀ d, Done s.tables d → Done (PostgresPaymentWebhookInbox.receive s.tables event now).2 d) ∧
      ((PostgresPaymentWebhookInbox.receive s.tables event now).1 = .processed →
        Done (PostgresPaymentWebhookInbox.receive s.tables event now).2
          event.toPaymentWebhookDelivery) := by
  have hprocessed : verifiedStatus (s.tables.events event.toPaymentWebhookDelivery) = .processed →
      Done s.tables event.toPaymentWebhookDelivery := by
    intro heq
    unfold verifiedStatus at heq
    split at heq
    · next eventType hrow => exact h.logged.processed _ _ hrow rfl
    · cases heq
  have hevents := h.updateEvent
    { eventType := event.eventType
      status := verifiedStatus (s.tables.events event.toPaymentWebhookDelivery) } hprocessed
  unfold PostgresPaymentWebhookInbox.receive
  dsimp only
  split
  · next heq => exact ⟨hevents, fun _ hdone => hdone, fun _ => hprocessed heq⟩
  · split
    · next hnone =>
      have hkeep : ∀ old, s.tables.outbox event.toPaymentWebhookDelivery = some old → False :=
        fun old hold => nomatch hnone.symm.trans hold
      refine ⟨hevents.update ?_ nofun nofun fun old hold => (hkeep old hold).elim,
        fun d hdone => ?_, nofun⟩
      · change (Function.update s.tables.events _ _ _).isSome = true
        rw [Function.update_self]
        rfl
      · exact done_update (fun old hold => (hkeep old hold).elim) d hdone
    · next current hcurrent =>
      refine ⟨hevents, fun _ hdone => hdone, fun heq => ⟨current, hcurrent, ?_⟩⟩
      dsimp only at heq
      split at heq
      · assumption
      · cases heq

end Calls

/-! ### Steps -/

section Steps

variable {s : WebhookState} {i : Nat} {process : WebhookProcess} {claim : PaymentWebhookClaim}

variable {token : String} {now : Int}

/-- What a claim does to the tables. -/
theorem claimNext_eq_some {tables tables' : WebhookTables} {delivery : PaymentWebhookDelivery}
    (h : claimNext tables delivery token now = some (claim, tables')) :
    ∃ row, tables.outbox delivery = some row ∧ (tables.events delivery).isSome ∧
      claimable row now = true ∧ claim.toPaymentWebhookDelivery = delivery ∧
      claim.claimToken = token ∧ claim.appliedEvent = row.applied ∧
      tables' = { tables with
        outbox := Function.update tables.outbox delivery (some (claimed row token now)) } := by
  obtain ⟨row, hrow, h⟩ := Option.bind_eq_some_iff.mp h
  obtain ⟨event, hevent, h⟩ := Option.bind_eq_some_iff.mp h
  split at h
  · next hclaimable =>
    obtain ⟨rfl, rfl⟩ := Prod.mk.inj (Option.some.inj h)
    exact ⟨row, hrow, by rw [hevent]; rfl, hclaimable, rfl, rfl, rfl, rfl⟩
  · cases h

theorem not_completed_of_claimable {row : WebhookOutboxRow} (h : claimable row now = true) :
    row.status ≠ .completed := by
  intro hcompleted
  simp [claimable, hcompleted] at h

theorem invariant_stepReceive (h : HoldsBut i none s) (hcounts : process.Counted s.tables)
    {event : CanonicalPaymentWebhook}
    (hdelivery : process.delivery = some event.toPaymentWebhookDelivery)
    (hcompleted : process.completed = 0)
    (fate : StatementFate) (now : Int) :
    WebhookInvariant (s.stepReceive i process event fate now) := by
  obtain ⟨hreceived, hmono, hprocessed⟩ := h.receive event now
  have hcounts' := hcounts.mono hmono
  cases fate with
  | failed code => exact h.drop hcounts _
  | lost code => exact hreceived.drop hcounts' _
  | answered =>
    simp only [WebhookState.stepReceive]
    split
    · exact hreceived.drop hcounts' _
    · next hbusy =>
      refine hreceived.turn
        ⟨fun d hd hcount => ?_, fun hreceipt => hbusy (Option.some.inj hreceipt)⟩
      rcases hcount with hreceipt | hpositive
      · rw [← Option.some.inj (hdelivery.symm.trans hd)]
        exact hprocessed (Option.some.inj hreceipt)
      · change 0 < process.completed at hpositive
        omega

/-- A row is claimed. -/
theorem HoldsBut.claimNext (h : HoldsBut i none s) {delivery : PaymentWebhookDelivery}
    {tables : WebhookTables} (hfresh : ∀ delivery applied, .claimed delivery token applied ∉ s.log)
    (hclaim : PostgresPaymentWebhookInbox.claimNext s.tables delivery token now =
      some (claim, tables)) : HoldsBut i (some token)
      ({ s with tables }.note (.claimed delivery token claim.appliedEvent)) ∧
    (∀ d, Done s.tables d → Done tables d) ∧
    ∀ row, heldRow tables claim = some row → row.applied = claim.appliedEvent := by
  obtain ⟨row, hrow, hevent, hclaimable, hdelivery, htoken, happlied, rfl⟩ :=
    claimNext_eq_some hclaim
  have hkeep : ∀ old, s.tables.outbox delivery = some old →
      (old.status = .completed → (claimed row token now).status = .completed) ∧
        ∀ event, old.applied = some event → (claimed row token now).applied = some event := by
    intro old hold
    obtain rfl := Option.some.inj (hold.symm.trans hrow)
    exact ⟨fun hcompleted => absurd hcompleted (not_completed_of_claimable hclaimable),
      fun _ he => he⟩
  have hnoted : HoldsBut i (some token) (s.note (.claimed delivery token claim.appliedEvent)) := by
    refine (h.fresh hfresh).note _ ⟨hfresh, fun token' event hmem => ?_⟩
    obtain ⟨old, hold, hevent⟩ := h.logged.checkpointed delivery token' event hmem
    obtain rfl := Option.some.inj (hold.symm.trans hrow)
    exact happlied.trans hevent
  refine ⟨hnoted.update hevent (fun _ => ⟨rfl, token, _, claim.appliedEvent, rfl, rfl, ?_⟩) nofun
    hkeep, done_update fun old hold => (hkeep old hold).1, fun r hr => ?_⟩
  · exact List.mem_append_right _ List.mem_cons_self
  · obtain ⟨hget, -⟩ := heldRow_eq_some.mp hr
    change Function.update s.tables.outbox delivery _ claim.toPaymentWebhookDelivery =
      some r at hget
    rw [hdelivery, Function.update_self, Option.some.injEq] at hget
    rw [← hget, happlied]
    rfl

theorem invariant_stepClaim (h : HoldsBut i none s) (hcounts : process.Counted s.tables)
    (hkeep : WebhookInvariant s) (fate : StatementFate) (now : Int)
    (hfresh : ∀ delivery applied, .claimed delivery token applied ∉ s.log)
    (chosen : Option PaymentWebhookDelivery) :
    WebhookInvariant (s.stepClaim i process fate now token chosen) := by
  unfold WebhookState.stepClaim
  split
  · split
    · exact h.turn hcounts
    · exact h.drop hcounts _
  · next delivery =>
    split
    · exact hkeep
    · next hown =>
      split
      · exact hkeep
      · exact h.drop hcounts _
      · next code claim tables hclaim =>
        obtain ⟨hclaimed, hmono, -⟩ := h.claimNext hfresh hclaim
        exact hclaimed.drop (hcounts.mono hmono) _
      · next claim tables hclaim =>
        obtain ⟨hclaimed, hmono, hrows⟩ := h.claimNext hfresh hclaim
        obtain ⟨-, -, -, -, hdelivery, htoken, -⟩ := claimNext_eq_some hclaim
        have hcounts' := hcounts.mono hmono
        have hhold : process.MayHold (s.log ++ [.claimed delivery token claim.appliedEvent])
            claim := by
          refine ⟨List.mem_append_right _ ?_, fun d hd => ?_⟩
          · rw [hdelivery, htoken]
            exact List.mem_cons_self
          · rw [hd] at hown
            exact hdelivery.trans (by simpa using hown : d = delivery).symm
        subst htoken
        dsimp only
        split
        · next hnone =>
          have hnoted := hclaimed.note (.applying claim.claimToken) ⟨delivery, by
            rw [← hnone]
            exact List.mem_append_right _ List.mem_cons_self⟩
          exact hnoted.put_at (.applying claim) rfl (hcounts'.sound_at rfl (hhold.note _)
            (fun _ => ⟨hnone, fun row hrow => (hrows row hrow).trans hnone⟩) (by simp) (by simp)
            (by simp))
        · next event hevent =>
          exact hclaimed.onward hcounts' hhold
            (fun stored hstored => Option.some.inj (hstored.symm.trans hevent))
            fun hnone => nomatch hnone.symm.trans hevent

theorem invariant_stepCheckpoint (h : HoldsBut i (some claim.claimToken) s)
    (hcounts : process.Counted s.tables) (hhold : process.MayHold s.log claim)
    (hnone : claim.appliedEvent = none)
    (hrows : ∀ row, heldRow s.tables claim = some row → row.applied = none)
    (hidentity : ∀ e, event = some e → e.delivery = claim.toPaymentWebhookDelivery)
    (fate : StatementFate) : WebhookInvariant (s.stepCheckpoint i process claim event fate) := by
  have hcheckpointed : ∀ tables, checkpointApplied s.tables claim event = some tables →
      HoldsBut i (some claim.claimToken) ({ s with tables }.note
        (.checkpointed claim.toPaymentWebhookDelivery claim.claimToken event)) ∧
      ∀ d, Done s.tables d → Done tables d := by
    intro tables htables
    obtain ⟨row, hrow, htables⟩ := Option.bind_eq_some_iff.mp htables
    obtain rfl := Option.some.inj htables
    obtain ⟨-, hstatus, -⟩ := heldRow_eq_some.mp hrow
    obtain ⟨hchanged, hmono⟩ := h.change { row with applied := some event } hrow
      (fun _ => ⟨rfl, rfl⟩) (fun hcompleted => nomatch hstatus.symm.trans hcompleted)
      (fun e he => nomatch (hrows row hrow).symm.trans he)
    exact ⟨hchanged.note _ ⟨_, Function.update_self .., rfl⟩, hmono⟩
  unfold WebhookState.stepCheckpoint
  split
  · exact h.fail hcounts hhold _
  · exact h.fail hcounts hhold _
  · next tables htables =>
    obtain ⟨hnoted, hmono⟩ := hcheckpointed tables htables
    exact hnoted.fail (hcounts.mono hmono) (hhold.note _) _
  · next tables htables =>
    obtain ⟨hnoted, hmono⟩ := hcheckpointed tables htables
    exact hnoted.checkpointed (hcounts.mono hmono) (hhold.note _) hnone hidentity
      (List.mem_append_right _ List.mem_cons_self)

theorem invariant_stepComplete (h : HoldsBut i (some claim.claimToken) s)
    (hcounts : process.Counted s.tables) (hhold : process.MayHold s.log claim)
    (hsettled : .settled claim.toPaymentWebhookDelivery claim.claimToken ∈ s.log)
    (fate : StatementFate) : WebhookInvariant (s.stepComplete i process claim fate) := by
  have hcompleted : ∀ tables, complete s.tables claim = some tables →
      HoldsBut i (some claim.claimToken) { s with tables } ∧
      (∀ d, Done s.tables d → Done tables d) ∧ Done tables claim.toPaymentWebhookDelivery := by
    intro tables htables
    obtain ⟨row, hrow, htables⟩ := Option.bind_eq_some_iff.mp htables
    obtain rfl := Option.some.inj htables
    obtain ⟨hget, -⟩ := heldRow_eq_some.mp hrow
    obtain ⟨hchanged, hmono⟩ := h.change { row with
      status := .completed, claimToken := none, leaseExpiresAt := none, lastErrorCode := none }
      hrow nofun (fun _ => hsettled) (fun _ he => he)
    obtain ⟨event, hevent⟩ := Option.isSome_iff_exists.mp (h.logged.events _ _ hget)
    refine ⟨?_, hmono, ⟨_, Function.update_self .., rfl⟩⟩
    rw [hevent]
    exact hchanged.updateEvent _ fun _ => ⟨_, Function.update_self .., rfl⟩
  unfold WebhookState.stepComplete
  split
  · exact h.fail hcounts hhold _
  · exact h.fail hcounts hhold _
  · next tables htables =>
    obtain ⟨hdone, hmono, -⟩ := hcompleted tables htables
    exact hdone.fail (hcounts.mono hmono) hhold _
  · next tables htables =>
    obtain ⟨hdone, hmono, hself⟩ := hcompleted tables htables
    refine hdone.turn ⟨fun d hd _ => ?_, hcounts.2⟩
    rw [← hhold.2 d hd]
    exact hself

theorem invariant_stepRetry (h : HoldsBut i (some claim.claimToken) s)
    (hcounts : process.Counted s.tables) (errorCode : String) (fate : StatementFate) (now : Int) :
    WebhookInvariant (s.stepRetry i process claim errorCode fate now) := by
  have hretried : ∀ tables, retry s.tables claim errorCode now = some tables →
      HoldsBut i (some claim.claimToken) { s with tables } ∧
      ∀ d, Done s.tables d → Done tables d := by
    intro tables htables
    obtain ⟨row, hrow, htables⟩ := Option.bind_eq_some_iff.mp htables
    obtain rfl := Option.some.inj htables
    exact h.change { row with
      status := .retry, availableAt := now + 30000, claimToken := none, leaseExpiresAt := none
      lastErrorCode := some errorCode } hrow nofun nofun (fun _ he => he)
  unfold WebhookState.stepRetry
  split
  · exact h.drop hcounts _
  · exact h.drop hcounts _
  · next tables htables =>
    obtain ⟨hdone, hmono⟩ := hretried tables htables
    exact hdone.drop (hcounts.mono hmono) _
  · next tables htables =>
    obtain ⟨hdone, hmono⟩ := hretried tables htables
    exact hdone.turn (hcounts.mono hmono)

end Steps

/-! ## Runs -/

section Runs

open Effect

variable {s : WebhookState} {i : Nat} {process : WebhookProcess} {claim : PaymentWebhookClaim}

/-- What the claim of a process gives it. -/
theorem WebhookInvariant.holdsBut (h : WebhookInvariant s) (hprocess : s.processes i = some process)
    (hclaim : process.phase.claim = some claim) : HoldsBut i (some claim.claimToken) s := by
  have hbut := HoldsBut.of_invariant h hprocess
  rwa [hclaim] at hbut

/-- **The step lemma.** -/
theorem webhookInvariant_step (h : WebhookInvariant s) (move : Nat × WebhookMove)
    (hfresh : FreshToken s move) : WebhookInvariant (s.step move) := by
  obtain ⟨i, move⟩ := move
  unfold WebhookState.step
  dsimp only
  split
  · next event limit hnone =>
    refine (HoldsBut.of_none h i).put ?_ fun _ hclaim => (nomatch hclaim)
    exact { logged := nofun, own := nofun, identified := nofun, settling := nofun, settled := nofun
            received := fun e he =>
              ⟨congrArg _ (congrArg _ (WebhookPhase.receiving.inj he)), rfl, rfl⟩
            unapplied := fun c hphase => nomatch hphase
            counted := fun d _ hcount => (hcount.elim nofun fun hlt => absurd hlt (Nat.lt_irrefl _))
            busy := nofun }
  · exact (HoldsBut.of_none h i).turn
      ⟨nofun, nofun⟩
  · exact h
  · next process hprocess =>
    exact (HoldsBut.of_invariant h hprocess).drop (h.sound i _ hprocess).counts _
  · next process hprocess hcrash =>
    have hsound := h.sound i process hprocess
    have hcounts := hsound.counts
    split
    · next event fate now hphase =>
      have hbut := HoldsBut.of_invariant h hprocess
      rw [hphase] at hbut
      obtain ⟨hdelivery, -, hcompleted⟩ := hsound.received event hphase
      exact invariant_stepReceive hbut hcounts hdelivery hcompleted fate now
    · next fate now token chosen hphase =>
      have hbut := HoldsBut.of_invariant h hprocess
      rw [hphase] at hbut
      exact invariant_stepClaim hbut hcounts h fate now hfresh chosen
    · next claim event hphase =>
      have hclaim : process.phase.claim = some claim := by rw [hphase]; rfl
      obtain ⟨hnone, hrows⟩ := hsound.unapplied claim (.inl hphase)
      exact (h.holdsBut hprocess hclaim).onward hcounts (hsound.mayHold hclaim)
        (fun stored hstored => nomatch hnone.symm.trans hstored) fun _ => hrows
    · next claim code hphase =>
      have hclaim : process.phase.claim = some claim := by rw [hphase]; rfl
      exact (h.holdsBut hprocess hclaim).fail hcounts (hsound.mayHold hclaim) code
    · next claim event fate now hphase =>
      have hclaim : process.phase.claim = some claim := by rw [hphase]; rfl
      obtain ⟨hnone, hrows⟩ := hsound.unapplied claim (.inr ⟨event, hphase⟩)
      exact invariant_stepCheckpoint (h.holdsBut hprocess hclaim) hcounts (hsound.mayHold hclaim)
        hnone hrows (fun e he => hsound.identified claim e (he ▸ hphase)) fate
    · next claim event hphase =>
      have hclaim : process.phase.claim = some claim := by rw [hphase]; rfl
      have hnoted : HoldsBut i (some claim.claimToken)
          (s.note (.settled claim.toPaymentWebhookDelivery claim.claimToken)) :=
        (h.holdsBut hprocess hclaim).note _ (.inl ⟨event, hsound.settling claim event hphase⟩)
      exact hnoted.put_at _ rfl (hcounts.sound_at rfl ((hsound.mayHold hclaim).note _) (by simp)
        (by simp) (by simp) fun _ => List.mem_append_right _ List.mem_cons_self)
    · next claim event code hphase =>
      have hclaim : process.phase.claim = some claim := by rw [hphase]; rfl
      exact (h.holdsBut hprocess hclaim).fail hcounts (hsound.mayHold hclaim) code
    · next claim fate now hphase =>
      have hclaim : process.phase.claim = some claim := by rw [hphase]; rfl
      exact invariant_stepComplete (h.holdsBut hprocess hclaim) hcounts (hsound.mayHold hclaim)
        (hsound.settled claim hphase) fate
    · next claim errorCode fate now hphase =>
      have hclaim : process.phase.claim = some claim := by rw [hphase]; rfl
      exact invariant_stepRetry (h.holdsBut hprocess hclaim) hcounts errorCode fate now
    · exact h

theorem webhookInvariant_empty : WebhookInvariant {} := by
  have hnil : ∀ entry : WebhookEntry, entry ∉ [] := fun _ => List.not_mem_nil
  refine ⟨?_, fun _ _ hprocess => (nomatch hprocess),
    fun _ _ _ _ _ _ hprocess => (nomatch hprocess)⟩
  exact
    { unique := fun _ _ _ _ _ hmem => absurd hmem (hnil _)
      rows := fun _ _ hrow => (nomatch hrow)
      done := fun _ ⟨_, hrow, _⟩ => (nomatch hrow)
      answered := fun _ _ hmem => absurd hmem (hnil _)
      checkpointed := fun _ _ _ hmem => absurd hmem (hnil _)
      later := .nil
      stored := fun _ _ _ hmem => absurd hmem (hnil _)
      identity := fun _ _ _ hmem => absurd hmem (hnil _)
      tokens := fun _ h => h.elim (fun hmem => absurd hmem (hnil _))
        fun ⟨_, _, hmem⟩ => absurd hmem (hnil _)
      returned := fun _ _ hmem => absurd hmem (hnil _)
      events := fun _ _ hrow => (nomatch hrow)
      processed := fun _ _ hrow => (nomatch hrow) }

/-- **The run lemma.** -/
theorem webhookInvariant_run (moves : List (Nat × WebhookMove))
    (hfresh : Admits WebhookState.step FreshToken moves {}) :
    WebhookInvariant (runAll WebhookState.step moves {}) :=
  runAll_induct WebhookInvariant (fun _ move h hok => webhookInvariant_step h move hok) moves
    webhookInvariant_empty hfresh

end Runs

/-! ## What a step changes -/

section Changes

variable {s : WebhookState} {i : Nat} {process : WebhookProcess} {claim : PaymentWebhookClaim}

@[simp] theorem WebhookState.turn_tables : (s.turn i process).tables = s.tables := by
  unfold WebhookState.turn
  dsimp only
  split <;> rfl

@[simp] theorem WebhookState.drop_tables (answer : WebhookAnswer) :
    (s.drop i process answer).tables = s.tables := rfl

@[simp] theorem WebhookState.fail_tables (code : Option String) :
    (s.fail i process claim code).tables = s.tables := rfl

@[simp] theorem WebhookState.note_tables (entry : WebhookEntry) :
    (s.note entry).tables = s.tables := rfl

@[simp] theorem WebhookState.put_tables : (s.put i process).tables = s.tables := rfl

@[simp] theorem WebhookState.onward_tables (event : Option VerifiedPaymentWebhookEvent) :
    (s.onward i process claim event).tables = s.tables := by
  unfold WebhookState.onward
  repeat' split
  all_goals rfl

@[simp] theorem WebhookState.checkpointed_tables (event : Option VerifiedPaymentWebhookEvent) :
    (s.checkpointed i process claim event).tables = s.tables := by
  unfold WebhookState.checkpointed
  split <;> rfl

/-- Only the row a claim holds is another. -/
def ChangesHeld (tables tables' : WebhookTables) (claim : PaymentWebhookClaim) : Prop :=
  ∀ delivery row, tables.outbox delivery = some row →
    tables'.outbox delivery = some row ∨
      (claim.toPaymentWebhookDelivery = delivery ∧ heldRow tables claim = some row)

variable {row : WebhookOutboxRow}

theorem changesHeld_update {tables : WebhookTables} {row' : WebhookOutboxRow}
    (hheld : heldRow tables claim = some row)
    (events : PaymentWebhookDelivery → Option WebhookEventRow) : ChangesHeld tables
      { events
        outbox := Function.update tables.outbox claim.toPaymentWebhookDelivery (some row') }
      claim := by
  intro delivery old hold
  by_cases hd : delivery = claim.toPaymentWebhookDelivery
  · subst hd
    obtain rfl := Option.some.inj (hold.symm.trans (heldRow_eq_some.mp hheld).1)
    exact .inr ⟨rfl, hheld⟩
  · exact .inl ((Function.update_of_ne hd ..).trans hold)

theorem changesHeld_self (tables : WebhookTables) : ChangesHeld tables tables claim :=
  fun _ _ h => .inl h

theorem changesHeld_checkpoint (event : Option VerifiedPaymentWebhookEvent) (fate : StatementFate) :
    ChangesHeld s.tables (s.stepCheckpoint i process claim event fate).tables claim := by
  have hchanges : ∀ tables, checkpointApplied s.tables claim event = some tables →
      ChangesHeld s.tables tables claim := by
    intro tables htables
    obtain ⟨row, hrow, htables⟩ := Option.bind_eq_some_iff.mp htables
    obtain rfl := Option.some.inj htables
    exact changesHeld_update hrow _
  unfold WebhookState.stepCheckpoint
  split
  · exact changesHeld_self _
  · exact changesHeld_self _
  · next tables htables => exact hchanges tables htables
  · next tables htables =>
    rw [WebhookState.checkpointed_tables]
    exact hchanges tables htables

theorem changesHeld_complete (fate : StatementFate) :
    ChangesHeld s.tables (s.stepComplete i process claim fate).tables claim := by
  have hchanges : ∀ tables, complete s.tables claim = some tables →
      ChangesHeld s.tables tables claim := by
    intro tables htables
    obtain ⟨row, hrow, htables⟩ := Option.bind_eq_some_iff.mp htables
    obtain rfl := Option.some.inj htables
    exact changesHeld_update hrow _
  unfold WebhookState.stepComplete
  split
  · exact changesHeld_self _
  · exact changesHeld_self _
  · next tables htables => exact hchanges tables htables
  · next tables htables =>
    rw [WebhookState.turn_tables]
    exact hchanges tables htables

theorem changesHeld_retry (errorCode : String) (fate : StatementFate) (now : Int) :
    ChangesHeld s.tables (s.stepRetry i process claim errorCode fate now).tables claim := by
  have hchanges : ∀ tables, retry s.tables claim errorCode now = some tables →
      ChangesHeld s.tables tables claim := by
    intro tables htables
    obtain ⟨row, hrow, htables⟩ := Option.bind_eq_some_iff.mp htables
    obtain rfl := Option.some.inj htables
    exact changesHeld_update hrow _
  unfold WebhookState.stepRetry
  split
  · exact changesHeld_self _
  · exact changesHeld_self _
  · next tables htables => exact hchanges tables htables
  · next tables htables =>
    rw [WebhookState.turn_tables]
    exact hchanges tables htables

variable {delivery : PaymentWebhookDelivery}

/-- A receipt changes no row that is there. -/
theorem receive_keeps {tables : WebhookTables} (hrow : tables.outbox delivery = some row)
    (event : CanonicalPaymentWebhook) (now : Int) :
    (PostgresPaymentWebhookInbox.receive tables event now).2.outbox delivery = some row := by
  have hnew : ∀ new, tables.outbox event.toPaymentWebhookDelivery = none →
      Function.update tables.outbox event.toPaymentWebhookDelivery new delivery = some row := by
    intro new hnone
    refine (Function.update_of_ne ?_ ..).trans hrow
    rintro rfl
    exact nomatch hnone.symm.trans hrow
  unfold PostgresPaymentWebhookInbox.receive
  dsimp only
  repeat' split
  all_goals first | exact hrow | exact hnew _ ‹_›

theorem stepReceive_keeps (hrow : s.tables.outbox delivery = some row)
    (event : CanonicalPaymentWebhook) (fate : StatementFate) (now : Int) :
    (s.stepReceive i process event fate now).tables.outbox delivery = some row := by
  have hreceived := receive_keeps hrow event now
  cases fate with
  | failed code => exact hrow
  | lost code => exact hreceived
  | answered =>
    simp only [WebhookState.stepReceive]
    split
    · exact hreceived
    · rw [WebhookState.turn_tables]
      exact hreceived

/-- A claim changes the row it chooses. -/
theorem stepClaim_changes (hrow : s.tables.outbox delivery = some row) (fate : StatementFate)
    (now : Int) (token : String) (chosen : Option PaymentWebhookDelivery) :
    (s.stepClaim i process fate now token chosen).tables.outbox delivery = some row ∨
      (chosen = some delivery ∧ claimable row now = true) := by
  have hclaims : ∀ d claim tables, claimNext s.tables d token now = some (claim, tables) →
      tables.outbox delivery = some row ∨ (some d = some delivery ∧ claimable row now = true) := by
    intro d claim tables hclaim
    obtain ⟨old, hold, -, hclaimable, -, -, -, rfl⟩ := claimNext_eq_some hclaim
    by_cases hd : delivery = d
    · subst hd
      obtain rfl := Option.some.inj (hold.symm.trans hrow)
      exact .inr ⟨rfl, hclaimable⟩
    · exact .inl ((Function.update_of_ne hd ..).trans hrow)
  unfold WebhookState.stepClaim
  split
  · split
    · exact .inl (by rw [WebhookState.turn_tables]; exact hrow)
    · exact .inl hrow
  · split
    · exact .inl hrow
    · split
      · exact .inl hrow
      · exact .inl hrow
      · next hclaim => exact hclaims _ _ _ hclaim
      · next hclaim =>
        dsimp only
        split
        · exact hclaims _ _ _ hclaim
        · rw [WebhookState.onward_tables]
          exact hclaims _ _ _ hclaim

/-- What a step does to a row. -/
theorem step_changes (hrow : s.tables.outbox delivery = some row) (i : Nat) (move : WebhookMove) :
    (s.step (i, move)).tables.outbox delivery = some row ∨
      (∃ process claim, s.processes i = some process ∧ process.phase.claim = some claim ∧
        claim.toPaymentWebhookDelivery = delivery ∧ heldRow s.tables claim = some row) ∨
      (∃ fate now token, move = .claim fate now token (some delivery) ∧
        claimable row now = true) := by
  unfold WebhookState.step
  dsimp only
  split
  · exact .inl hrow
  · exact .inl (by rw [WebhookState.turn_tables]; exact hrow)
  · exact .inl hrow
  · exact .inl hrow
  · next process hprocess hcrash =>
    have hheld : ∀ {tables claim}, process.phase.claim = some claim →
        ChangesHeld s.tables tables claim → tables.outbox delivery = some row ∨
          ∃ process claim, s.processes i = some process ∧ process.phase.claim = some claim ∧
            claim.toPaymentWebhookDelivery = delivery ∧ heldRow s.tables claim = some row :=
      fun hclaim hchanges => (hchanges delivery row hrow).imp_right fun hheld =>
        ⟨process, _, hprocess, hclaim, hheld⟩
    split
    · exact .inl (stepReceive_keeps hrow ..)
    · next fate now token chosen hphase =>
      rcases stepClaim_changes hrow fate now token chosen with hsame | ⟨rfl, hclaimable⟩
      · exact .inl hsame
      · exact .inr (.inr ⟨fate, now, token, rfl, hclaimable⟩)
    · exact .inl (by rw [WebhookState.onward_tables]; exact hrow)
    · exact .inl hrow
    · next claim event fate now hphase =>
      exact (hheld (hphase ▸ rfl) (changesHeld_checkpoint event fate)).imp_right .inl
    · exact .inl hrow
    · exact .inl hrow
    · next claim fate now hphase =>
      exact (hheld (hphase ▸ rfl) (changesHeld_complete fate)).imp_right .inl
    · next claim errorCode fate now hphase =>
      exact (hheld (hphase ▸ rfl) (changesHeld_retry errorCode fate now)).imp_right .inl
    · exact .inl hrow

theorem changesOwn (s : WebhookState) (i : Nat) (move : WebhookMove) : ChangesOwn s i move where
  own _ _ hrow := step_changes hrow i move
  completed delivery row hrow hcompleted := by
    rcases step_changes hrow i move with hsame | ⟨process, claim, -, -, -, hheld⟩ |
        ⟨fate, now, token, -, hclaimable⟩
    · exact hsame
    · exact nomatch hcompleted.symm.trans (heldRow_eq_some.mp hheld).2.1
    · exact absurd hcompleted (not_completed_of_claimable hclaimable)

end Changes

/-! ## Every run -/

section EveryRun

open Effect

variable {s : WebhookState}

/-- A row that is not completed is due once its lease or its delay has passed. -/
theorem WebhookInvariant.due (h : WebhookInvariant s) {delivery : PaymentWebhookDelivery}
    {row : WebhookOutboxRow} (hrow : s.tables.outbox delivery = some row)
    (hopen : row.status ≠ .completed) :
    ∃ due, (if row.status = .processing then row.leaseExpiresAt = some due
        else row.availableAt = due) ∧
      ∀ now token, due ≤ now → ∃ claim tables,
        claimNext s.tables delivery token now = some (claim, tables) := by
  obtain ⟨event, hevent⟩ := Option.isSome_iff_exists.mp (h.logged.events delivery row hrow)
  have hclaim : ∀ now token, claimable row now = true → ∃ claim tables,
      claimNext s.tables delivery token now = some (claim, tables) := by
    intro now token hclaimable
    refine ⟨_, _, Option.bind_eq_some_iff.mpr ⟨row, hrow,
      Option.bind_eq_some_iff.mpr ⟨event, hevent, if_pos hclaimable⟩⟩⟩
  by_cases hprocessing : row.status = .processing
  · obtain ⟨-, lease, -, -, hlease, -⟩ := h.logged.rows delivery row hrow hprocessing
    refine ⟨lease, by rw [if_pos hprocessing, hlease], fun now token hdue => hclaim now token ?_⟩
    simp [claimable, hprocessing, hlease, hdue]
  · refine ⟨row.availableAt, if_neg hprocessing ▸ rfl, fun now token hdue => hclaim now token ?_⟩
    have hwaiting : row.status = .pending ∨ row.status = .retry := by
      cases hstatus : row.status <;> simp_all
    simp [claimable, hwaiting, hdue]

/-- What the invariant promises. -/
theorem WebhookInvariant.holds (h : WebhookInvariant s) : WebhooksHold s where
  acknowledged := h.logged.answered
  settled := h.logged.done
  returned := h.logged.returned
  held i j p q c c' hp hq hc hc' hheld hheld' hdelivery := by
    obtain ⟨row, hrow⟩ := Option.isSome_iff_exists.mp hheld
    obtain ⟨row', hrow'⟩ := Option.isSome_iff_exists.mp hheld'
    obtain ⟨hget, -, htoken⟩ := heldRow_eq_some.mp hrow
    obtain ⟨hget', -, htoken'⟩ := heldRow_eq_some.mp hrow'
    rw [← hdelivery, hget, Option.some.injEq] at hget'
    subst hget'
    exact h.distinct i j p q c c' hp hq hc hc' (Option.some.inj (htoken.symm.trans htoken'))
  later := h.logged.later
  stored := h.logged.stored
  identity := h.logged.identity
  due _ _ hrow hopen := h.due hrow hopen

/-- **A webhook is acknowledged only once it is settled, and settled work is not repeated**: of
every run of handlers and workers whose tokens are new. -/
theorem webhooksHold (moves : List (Nat × WebhookMove))
    (hfresh : Admits WebhookState.step FreshToken moves {}) :
    WebhooksHold (runAll WebhookState.step moves {}) ∧
      ∀ i move, ChangesOwn (runAll WebhookState.step moves {}) i move :=
  ⟨(webhookInvariant_run moves hfresh).holds, changesOwn _⟩

def settledDelivery : PaymentWebhookDelivery where
  provider := .stripe
  providerEventId := "event"

/-- A webhook is received, claimed, applied, checkpointed, settled and completed by its handler. -/
def settledWebhook : List (Nat × WebhookMove) :=
  [(0, .deliver
      { toPaymentWebhookDelivery := settledDelivery
        eventType := "invoice.paid"
        payload := "payload"
        signature := "signature" } 1),
    (0, .statement .answered 0),
    (0, .claim .answered 0 "token" (some settledDelivery)),
    (0, .applied (.ok (some
      { provider := .stripe, providerEventId := "event", facts := .object [] }))),
    (0, .statement .answered 1),
    (0, .settled (.ok ())),
    (0, .statement .answered 2)]

theorem webhooksHold_settledWebhook :
    (runAll WebhookState.step settledWebhook {}).log.getLast? =
      some (.answered settledDelivery .accepted) ∧
    WebhooksHold (runAll WebhookState.step settledWebhook {}) ∧
      ∀ i move, ChangesOwn (runAll WebhookState.step settledWebhook {}) i move :=
  ⟨rfl, webhooksHold settledWebhook
    ⟨trivial, trivial, fun _ _ => List.not_mem_nil, trivial, trivial, trivial, trivial, trivial⟩⟩

end EveryRun

end MeiyeAgent
