import MeiyeAgent.SupplyRegistry.DrainableChannels

/-!
# SupplyRegistry/ChannelHistories — isolation and drain hold in both implementations

A history is what has been called and answered, and the records shown so far.  Which submissions are
in flight and whether the channel is shut are read off it; `ChannelLaw` is what the next call does,
and `channelsHold` carries it over a run of both implementations, side by side.
-/

namespace MeiyeAgent

open Effect

/-! ## Histories -/

abbrev ChannelEvent := ChannelCall × Except HotAssemblyError ChannelAnswer

/-- The submissions in flight, after an event. -/
def inFlightAfter (ids : Finset String) : ChannelEvent → Finset String
  | (.acquireChannelSubmission id, .ok (.admission admission)) =>
    if admission.newlyAcquired then insert id ids else ids
  | (.releaseChannelSubmission id, .ok _) => ids.erase id
  | _ => ids

/-- **The submissions admitted and not released.** -/
def outstandingSubmissions (events : List ChannelEvent) : Finset String := events.foldl inFlightAfter ∅

/-- Whether the channel is shut, after an event. -/
def shutAfter (shut : Bool) : ChannelEvent → Bool
  | (.isolateChannel _ _, .ok _) | (.startChannelDrain _ _, .ok _) => true
  | (.completeChannelDrain _ _ _, .ok _) | (.restoreChannel _ _ _, .ok _) => false
  | _ => shut

/-- **Shut**: isolated or put to drain, and neither restored nor drained since. -/
def shut (events : List ChannelEvent) : Bool := events.foldl shutAfter false

/-- A submission is admitted that was not before. -/
def ChannelEvent.admits : ChannelEvent → Bool
  | (_, .ok (.admission admission)) => admission.newlyAcquired
  | _ => false

/-- The count of submissions an answer reports. -/
def ChannelAnswer.inFlightCount : ChannelAnswer → Int
  | .admission submission => submission.inFlightCount
  | .lifecycle state => state.inFlightCount

/-- Both implementations, what they were asked and have answered, and the records they showed. -/
structure ChannelHistory where
  memory : MemoryChannel
  rows : PostgresChannel
  events : List ChannelEvent
  shown : List ChannelLifecycleState

/-- A call, and the text of the instant it is made at. -/
abbrev ChannelStep := String × ChannelCall

section Histories

variable (channelId : String)

def ChannelHistory.initial : ChannelHistory := ⟨{}, {}, [], [absentChannel channelId]⟩

namespace ChannelHistory

variable (h : ChannelHistory) (step : ChannelStep)

/-- What memory answers. -/
def answer : Except HotAssemblyError ChannelAnswer :=
  result (CapabilityHotAssemblyRegistry.perform channelId step.1 step.2) h.memory

/-- What Postgres answers. -/
def rowsAnswer : Except HotAssemblyError ChannelAnswer :=
  result (PostgresCapabilityHotAssemblyPort.perform channelId step.1 step.2) h.rows

/-- The record memory shows. -/
def view : ChannelLifecycleState :=
  CapabilityHotAssemblyRegistry.getChannelLifecycle channelId h.memory

/-- The record Postgres shows. -/
def rowsView : ChannelLifecycleState :=
  PostgresCapabilityHotAssemblyPort.getChannelLifecycle channelId h.rows

/-- The history after a call to both. -/
def next : ChannelHistory :=
  let memory := final (CapabilityHotAssemblyRegistry.perform channelId step.1 step.2) h.memory
  { memory
    rows := final (PostgresCapabilityHotAssemblyPort.perform channelId step.1 step.2) h.rows
    events := h.events ++ [(step.2, h.answer channelId step)]
    shown := h.shown ++ [CapabilityHotAssemblyRegistry.getChannelLifecycle channelId memory] }

end ChannelHistory

/-- **What the next call does.** -/
structure ChannelLaw (h : ChannelHistory) (step : ChannelStep) : Prop where
  /-- both answer the same, and show the same record -/
  alike : h.rowsAnswer channelId step = h.answer channelId step ∧
    (h.next channelId step).rowsView channelId = (h.next channelId step).view channelId
  /-- nothing new is admitted to a channel that is shut -/
  closed : shut h.events = true → ChannelEvent.admits (step.2, h.answer channelId step) = false
  /-- a drain is completed of a channel that is draining, with nothing in flight -/
  drained : ∀ reason now expected, step.2 = .completeChannelDrain reason now expected →
    ∀ answer, h.answer channelId step = .ok answer →
      (h.view channelId).mode = .draining ∧ outstandingSubmissions h.events = ∅
  /-- the count is that of the submissions admitted and not released -/
  counted : ((h.next channelId step).view channelId).inFlightCount =
      (outstandingSubmissions (h.next channelId step).events).card ∧
    ∀ answer, h.answer channelId step = .ok answer →
      answer.inFlightCount = (outstandingSubmissions (h.next channelId step).events).card
  /-- a change of the record or of the submissions in flight moves the revision forward -/
  forward : ((h.next channelId step).view channelId = h.view channelId ∧
      outstandingSubmissions (h.next channelId step).events = outstandingSubmissions h.events) ∨
    ∃ number, (h.view channelId).lifecycleRevision = channelLifecycleRevisionId channelId number ∧
      ((h.next channelId step).view channelId).lifecycleRevision =
        channelLifecycleRevisionId channelId (number + 1)
  /-- a revision names one record only -/
  fresh : ∀ earlier ∈ h.shown,
    earlier.lifecycleRevision = ((h.next channelId step).view channelId).lifecycleRevision →
      earlier = (h.next channelId step).view channelId

/-- **The calls both carry out as they should.** -/
def ChannelMet (h : ChannelHistory) (step : ChannelStep) : Prop :=
  CountsAsIs channelId h.memory step.2 ∧ CompletesDrains channelId h.rows step.2

end Histories

/-! ## What one call does -/

variable {channelId clock : String} {a a' : DrainableChannel} {call : ChannelCall}
  {answer : ChannelAnswer}

/-- What a call that is answered makes of the abstract channel. -/
structure DrainableChannel.Outcome (a : DrainableChannel) (call : ChannelCall)
    (answer : ChannelAnswer) (a' : DrainableChannel) : Prop where
  same_or_next : a' = a ∨ a'.number = a.number + 1
  flights : a'.flights = inFlightAfter a.flights (call, .ok answer)
  shut : ∀ shut, (shut = true → a.mode ≠ .accepting) →
    shutAfter shut (call, .ok answer) = true → a'.mode ≠ .accepting
  admits : ChannelEvent.admits (call, .ok answer) = true → a.mode = .accepting
  drained : ∀ reason now expected, call = .completeChannelDrain reason now expected →
    a.mode = .draining ∧ a.flights = ∅
  counted : answer.inFlightCount = a'.flights.card

namespace DrainableChannel

theorem outcome_acquire (id : String) : Outcome a (.acquireChannelSubmission id)
    (a.acquire channelId id).1 (a.acquire channelId id).2 := by
  rw [acquire]
  split
  · exact ⟨.inl rfl, rfl, fun _ h => h, by rintro ⟨⟩, by rintro _ _ _ ⟨⟩, rfl⟩
  · next hid =>
    split
    · exact ⟨.inl rfl, rfl, fun _ h => h, by rintro ⟨⟩, by rintro _ _ _ ⟨⟩, rfl⟩
    · next hmode =>
      exact ⟨.inr rfl, rfl, fun _ h => h, fun _ => not_not.mp hmode, by rintro _ _ _ ⟨⟩, rfl⟩

theorem outcome_release (id : String) : Outcome a (.releaseChannelSubmission id)
    (a.release channelId id).1 (a.release channelId id).2 := by
  rw [release]
  split
  · exact ⟨.inr rfl, rfl, fun _ h => h, by rintro ⟨⟩, by rintro _ _ _ ⟨⟩, rfl⟩
  · next hid =>
    exact ⟨.inl rfl, (Finset.erase_eq_of_notMem hid).symm, fun _ h => h, by rintro ⟨⟩,
      by rintro _ _ _ ⟨⟩, rfl⟩

/-- A move is answered with the record moved to. -/
theorem of_move {mode : ChannelLifecycleMode} {drainMode : MediaProviderDrainMode}
    {reason : String} {now expected : Option String}
    (h : a.move channelId clock mode drainMode reason now expected = .ok (answer, a')) :
    a' = a.moved mode drainMode reason (now.getD clock) ∧
      answer = .lifecycle (a'.view channelId) := by
  rw [move] at h
  split at h
  · cases h
  · obtain ⟨rfl, rfl⟩ := Prod.mk.inj (Except.ok.inj h)
    exact ⟨rfl, rfl⟩

theorem of_complete {reason : String} {now expected : Option String}
    (h : a.complete channelId clock reason now expected = .ok (answer, a')) :
    (a.mode = .draining ∧ a.flights = ∅) ∧
      a' = a.moved .accepting .accepting reason (now.getD clock) ∧
      answer = .lifecycle (a'.view channelId) := by
  rw [complete] at h
  split at h
  · cases h
  · next hmode =>
    split at h
    · cases h
    · split at h
      · cases h
      · next hempty =>
        obtain ⟨rfl, rfl⟩ := Prod.mk.inj (Except.ok.inj h)
        exact ⟨⟨not_not.mp hmode, not_not.mp hempty⟩, rfl, rfl⟩

theorem outcome_of_perform (h : a.perform channelId clock call = .ok (answer, a')) :
    Outcome a call answer a' := by
  cases call with
  | acquireChannelSubmission id =>
    have hsame := Prod.mk.inj (Except.ok.inj h)
    exact hsame.1 ▸ hsame.2 ▸ outcome_acquire id
  | releaseChannelSubmission id =>
    have hsame := Prod.mk.inj (Except.ok.inj h)
    exact hsame.1 ▸ hsame.2 ▸ outcome_release id
  | isolateChannel reason options =>
    obtain ⟨rfl, rfl⟩ := of_move h
    exact ⟨.inr rfl, rfl, fun _ _ _ => nofun, nofun, nofun, rfl⟩
  | startChannelDrain reason options =>
    obtain ⟨rfl, rfl⟩ := of_move h
    exact ⟨.inr rfl, rfl, fun _ _ _ => nofun, nofun, nofun, rfl⟩
  | completeChannelDrain reason now expected =>
    obtain ⟨hdrained, rfl, rfl⟩ := of_complete h
    exact ⟨.inr rfl, rfl, fun _ _ => nofun, nofun, fun _ _ _ _ => hdrained, rfl⟩
  | restoreChannel reason now expected =>
    obtain ⟨rfl, rfl⟩ := of_move h
    exact ⟨.inr rfl, rfl, fun _ _ => nofun, nofun, nofun, rfl⟩

end DrainableChannel

/-! ## Runs -/

/-- **The channel behind a history.** -/
structure ChannelInvariant (channelId : String) (h : ChannelHistory) (a : DrainableChannel) :
    Prop where
  memory : ShownInMemory channelId h.memory a
  rows : ShownInRows channelId h.rows a
  flights : a.flights = outstandingSubmissions h.events
  shut : shut h.events = true → a.mode ≠ .accepting
  shown : ∀ earlier ∈ h.shown, ∃ number, number ≤ a.number ∧
    earlier.lifecycleRevision = channelLifecycleRevisionId channelId number ∧
    (number = a.number → earlier = a.view channelId)

theorem channelInvariant_initial :
    ChannelInvariant channelId (ChannelHistory.initial channelId) {} where
  memory := ⟨rfl, rfl⟩
  rows := ⟨rfl, rfl, rfl⟩
  flights := rfl
  shut := nofun
  shown := fun earlier h => ⟨0, le_refl _, by
    obtain rfl := List.mem_singleton.mp h
    exact ⟨rfl, fun _ => rfl⟩⟩

theorem outstanding_append (events : List ChannelEvent) (event : ChannelEvent) :
    outstandingSubmissions (events ++ [event]) = inFlightAfter (outstandingSubmissions events) event := by
  rw [outstandingSubmissions, List.foldl_append]
  rfl

theorem shut_append (events : List ChannelEvent) (event : ChannelEvent) :
    shut (events ++ [event]) = shutAfter (shut events) event := by
  rw [shut, List.foldl_append]
  rfl

/-- **How a call ends** in an implementation that carries it out. -/
theorem CarriedOut.ends {σ : Type} {Shown : σ → DrainableChannel → Prop} {s : σ}
    {perform : EStateM HotAssemblyError σ ChannelAnswer}
    {spec : Except HotAssemblyError (ChannelAnswer × DrainableChannel)}
    (h : CarriedOut Shown perform s spec) :
    (∃ answer a', spec = .ok (answer, a') ∧ result perform s = .ok answer ∧
      Shown (final perform s) a') ∨
    ∃ e, spec = .error e ∧ result perform s = .error e ∧ final perform s = s := by
  obtain ⟨hok, herror⟩ := wp_iff_result.mp h
  cases hr : result perform s with
  | ok answer =>
    obtain ⟨a', hspec, hshown⟩ := hok answer hr
    exact .inl ⟨answer, a', hspec, rfl, hshown⟩
  | error e =>
    obtain ⟨hspec, hsame⟩ := herror e hr
    exact .inr ⟨e, hspec, rfl, hsame⟩

variable {h : ChannelHistory} {step : ChannelStep}

/-- A call both implementations answer, as the abstract channel does. -/
theorem channelLaw_of_answer (hinv : ChannelInvariant channelId h a)
    (hspec : a.perform channelId step.1 step.2 = .ok (answer, a'))
    (hanswer : h.answer channelId step = .ok answer)
    (hrowsAnswer : h.rowsAnswer channelId step = .ok answer)
    (hmemory : ShownInMemory channelId (h.next channelId step).memory a')
    (hrows : ShownInRows channelId (h.next channelId step).rows a') :
    ChannelLaw channelId h step ∧ ChannelInvariant channelId (h.next channelId step) a' := by
  have hout := DrainableChannel.outcome_of_perform hspec
  have hview : (h.next channelId step).view channelId = a'.view channelId := hmemory.1
  have hevents : (h.next channelId step).events = h.events ++ [(step.2, .ok answer)] := by
    rw [← hanswer]
    rfl
  have hflights : a'.flights = outstandingSubmissions (h.next channelId step).events := by
    rw [hevents, outstanding_append, ← hinv.flights]
    exact hout.flights
  have hbefore : h.view channelId = a.view channelId := hinv.memory.1
  have hshown : ∀ earlier ∈ h.shown, ∃ number, number ≤ a'.number ∧
      earlier.lifecycleRevision = channelLifecycleRevisionId channelId number ∧
      (number = a'.number → earlier = a'.view channelId) := by
    intro earlier hearlier
    obtain ⟨number, hle, hrevision, hsame⟩ := hinv.shown earlier hearlier
    rcases hout.same_or_next with rfl | hnext
    · exact ⟨number, hle, hrevision, hsame⟩
    · exact ⟨number, by omega, hrevision, fun heq => by omega⟩
  refine ⟨⟨⟨hrowsAnswer.trans hanswer.symm, hrows.1.trans hview.symm⟩, fun hshut => ?_,
    fun reason now expected hcall _ _ => ?_, ⟨?_, fun answer' hanswer' => ?_⟩, ?_,
    fun earlier hearlier hrevision => ?_⟩, ⟨hmemory, hrows, hflights, fun hshut => ?_, ?_⟩⟩
  · rw [hanswer]
    by_contra hadmits
    exact hinv.shut hshut (hout.admits (Bool.not_eq_false _ ▸ hadmits))
  · obtain ⟨hmode, hempty⟩ := hout.drained reason now expected hcall
    rw [hbefore, ← hinv.flights]
    exact ⟨hmode, hempty⟩
  · rw [hview, ← hflights]
    rfl
  · obtain rfl := Except.ok.inj (hanswer.symm.trans hanswer')
    rw [← hflights]
    exact hout.counted
  · rw [hview, hbefore, ← hflights, ← hinv.flights]
    rcases hout.same_or_next with rfl | hnext
    · exact .inl ⟨rfl, rfl⟩
    · refine .inr ⟨a.number, rfl, ?_⟩
      rw [← hnext]
      rfl
  · rw [hview] at hrevision ⊢
    obtain ⟨number, _, hnumber, hsame⟩ := hshown earlier hearlier
    exact hsame (channelLifecycleRevisionId_inj.mp (hnumber.symm.trans hrevision))
  · rw [hevents, shut_append] at hshut
    exact hout.shut _ hinv.shut hshut
  · intro earlier hearlier
    rcases List.mem_append.mp hearlier with hearlier | hlast
    · exact hshown earlier hearlier
    · obtain rfl := List.mem_singleton.mp hlast
      exact ⟨a'.number, le_refl _, congrArg _ hview, fun _ => hview⟩

/-- An event that is an error changes neither the submissions nor whether the channel is shut. -/
theorem after_error (ids : Finset String) (shut : Bool) (call : ChannelCall)
    (e : HotAssemblyError) :
    inFlightAfter ids (call, .error e) = ids ∧ shutAfter shut (call, .error e) = shut := by
  cases call <;> exact ⟨rfl, rfl⟩

/-- A call both implementations refuse. -/
theorem channelLaw_of_error (hinv : ChannelInvariant channelId h a) {e : HotAssemblyError}
    (hanswer : h.answer channelId step = .error e)
    (hrowsAnswer : h.rowsAnswer channelId step = .error e)
    (hmemory : (h.next channelId step).memory = h.memory)
    (hrows : (h.next channelId step).rows = h.rows) :
    ChannelLaw channelId h step ∧ ChannelInvariant channelId (h.next channelId step) a := by
  have hview : (h.next channelId step).view channelId = a.view channelId := by
    rw [ChannelHistory.view, hmemory]
    exact hinv.memory.1
  have hevents : (h.next channelId step).events = h.events ++ [(step.2, .error e)] := by
    rw [← hanswer]
    rfl
  obtain ⟨hids, hshut⟩ := after_error (outstandingSubmissions h.events) (shut h.events) step.2 e
  have hflights : a.flights = outstandingSubmissions (h.next channelId step).events := by
    rw [hevents, outstanding_append, hids]
    exact hinv.flights
  have hbefore : h.view channelId = a.view channelId := hinv.memory.1
  have hnone : ∀ answer, h.answer channelId step ≠ .ok answer := fun answer hok => by
    rw [hanswer] at hok
    cases hok
  refine ⟨⟨⟨hrowsAnswer.trans hanswer.symm, ?_⟩, fun _ => ?_,
    fun _ _ _ _ answer hok => absurd hok (hnone answer),
    ⟨?_, fun answer hok => absurd hok (hnone answer)⟩, ?_, fun earlier hearlier hrevision => ?_⟩,
    ⟨hmemory ▸ hinv.memory, hrows ▸ hinv.rows, hflights, ?_, ?_⟩⟩
  · rw [hview, ChannelHistory.rowsView, hrows]
    exact hinv.rows.1
  · rw [hanswer]
    rfl
  · rw [hview, ← hflights]
    rfl
  · rw [hview, hbefore, ← hflights, ← hinv.flights]
    exact .inl ⟨rfl, rfl⟩
  · rw [hview] at hrevision ⊢
    obtain ⟨number, _, hnumber, hsame⟩ := hinv.shown earlier hearlier
    exact hsame (channelLifecycleRevisionId_inj.mp (hnumber.symm.trans hrevision))
  · rw [hevents, shut_append, hshut]
    exact hinv.shut
  · intro earlier hearlier
    rcases List.mem_append.mp hearlier with hearlier | hlast
    · exact hinv.shown earlier hearlier
    · obtain rfl := List.mem_singleton.mp hlast
      exact ⟨a.number, le_refl _, congrArg _ hview, fun _ => hview⟩

/-- **One call**: both implementations do what the law says, and go on as one channel. -/
theorem channelLaw_step (hinv : ∃ a, ChannelInvariant channelId h a)
    (hmet : ChannelMet channelId h step) :
    (∃ a, ChannelInvariant channelId (h.next channelId step) a) ∧ ChannelLaw channelId h step := by
  obtain ⟨a, hinv⟩ := hinv
  have hcarried : CarriedOut _ _ _ (a.perform channelId step.1 step.2) :=
    carriedOut_memory hinv.memory step.2 hmet.1
  have hcarried' : CarriedOut _ _ _ (a.perform channelId step.1 step.2) :=
    carriedOut_rows hinv.rows step.2 hmet.2
  have hmemory := hcarried.ends
  have hrows := hcarried'.ends
  rcases hmemory with ⟨answer, a', hspec, hanswer, hshown⟩ | ⟨e, hspec, hanswer, hsame⟩
  · rcases hrows with ⟨answer', a'', hspec', hanswer', hshown'⟩ | ⟨e', hspec', _⟩
    · obtain ⟨rfl, rfl⟩ := Prod.mk.inj (Except.ok.inj (hspec.symm.trans hspec'))
      obtain ⟨hlaw, hinv'⟩ := channelLaw_of_answer hinv hspec hanswer hanswer' hshown hshown'
      exact ⟨⟨_, hinv'⟩, hlaw⟩
    · rw [hspec] at hspec'
      cases hspec'
  · rcases hrows with ⟨answer', a'', hspec', _⟩ | ⟨e', hspec', hanswer', hsame'⟩
    · rw [hspec] at hspec'
      cases hspec'
    · obtain rfl := Except.error.inj (hspec.symm.trans hspec')
      obtain ⟨hlaw, hinv'⟩ := channelLaw_of_error hinv hanswer hanswer' hsame hsame'
      exact ⟨⟨_, hinv'⟩, hlaw⟩

/-- **Isolation and drain hold in both implementations**, side by side, in every run of one channel
that completes only drains and brings no count along but the count. -/
theorem channelsHold (channelId : String) (steps : List ChannelStep)
    (hmet : Admits (ChannelHistory.next channelId) (ChannelMet channelId) steps
      (.initial channelId)) :
    Admits (ChannelHistory.next channelId) (ChannelLaw channelId) steps (.initial channelId) :=
  Admits.beside (fun h => ∃ a, ChannelInvariant channelId h a)
    (fun _ _ hinv hmet => channelLaw_step hinv hmet) ⟨{}, channelInvariant_initial⟩ hmet

/-! ## Runs that meet the condition, and runs that do not -/

instance (s : MemoryChannel) (call : ChannelCall) : Decidable (CountsAsIs channelId s call) :=
  match call with
  | .isolateChannel _ options | .startChannelDrain _ options =>
    match h : options.inFlightCount with
    | none => .isTrue (.inr fun _ hnone => absurd (h ▸ hnone) nofun)
    | some count => decidable_of_iff (staleRevision options.expectedLifecycleRevision
        (CapabilityHotAssemblyRegistry.getChannelLifecycle channelId s) = true ∨
          count = s.inFlight.card) (by
      refine or_congr Iff.rfl ⟨fun heq count' hsome => ?_, fun hall => hall count h⟩
      rw [h] at hsome
      exact (Option.some.inj hsome) ▸ heq)
  | .acquireChannelSubmission _ | .releaseChannelSubmission _ | .completeChannelDrain _ _ _
  | .restoreChannel _ _ _ => .isTrue trivial

instance (s : PostgresChannel) (call : ChannelCall) : Decidable (CompletesDrains channelId s call) :=
  match call with
  | .completeChannelDrain _ _ _ => inferInstanceAs (Decidable (_ = _))
  | .acquireChannelSubmission _ | .releaseChannelSubmission _ | .isolateChannel _ _
  | .startChannelDrain _ _ | .restoreChannel _ _ _ => .isTrue trivial

instance (h : ChannelHistory) (step : ChannelStep) : Decidable (ChannelMet channelId h step) :=
  inferInstanceAs (Decidable (_ ∧ _))

/-- A drain that waits for the submission in flight. -/
theorem channelsHold_drain : Admits (ChannelHistory.next "c") (ChannelLaw "c")
    [("t0", .acquireChannelSubmission "s"), ("t1", .startChannelDrain "maintenance" {}),
      ("t2", .acquireChannelSubmission "late"), ("t3", .completeChannelDrain "early" none none),
      ("t4", .releaseChannelSubmission "s"), ("t5", .completeChannelDrain "done" none none)]
    (.initial "c") := channelsHold "c" _ (by decide +kernel)

/-- **Postgres reopens an isolated channel** when a drain is completed that never started, and
**memory completes a drain with work in flight** when the drain was started with a count of its
own. -/
theorem not_channelsHold :
    ¬ Admits (ChannelHistory.next "c") (ChannelLaw "c")
      [("t0", .isolateChannel "incident" {}), ("t1", .completeChannelDrain "done" none none)]
      (.initial "c") ∧
    ¬ Admits (ChannelHistory.next "c") (ChannelLaw "c")
      [("t0", .acquireChannelSubmission "s"),
        ("t1", .startChannelDrain "maintenance" { inFlightCount := some 0 }),
        ("t2", .completeChannelDrain "done" none none)] (.initial "c") := by
  constructor
  · rintro ⟨_, hlaw, _⟩
    exact absurd hlaw.alike.1 (by decide +kernel)
  · rintro ⟨_, _, hlaw, _⟩
    have hempty := (hlaw.drained "done" none none rfl _ (by rfl)).2
    exact absurd hempty (by decide +kernel)

end MeiyeAgent
