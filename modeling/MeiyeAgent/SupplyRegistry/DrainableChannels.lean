import MeiyeAgent.Machinery.SideBySide
import MeiyeAgent.SupplyRegistry.ChannelLifecycle

/-!
# SupplyRegistry/DrainableChannels — what a channel that can be drained is

The abstract channel holds the submissions in flight and the number of its revision; the record
shown, its text and its count are read off them.  Postgres refines it except where a drain is
completed that never started, memory except where a call brings a count of its own.
-/

namespace MeiyeAgent

open Effect

/-! ## Revisions are read back -/

theorem lifecycleNumber_id (channelId : String) (revision : Nat) :
    lifecycleNumber (channelLifecycleRevisionId channelId revision) = some revision := by
  have hdigits : ∀ c ∈ (Nat.toDigits 10 revision).reverse, c.isDigit = true := fun c hc =>
    Nat.isDigit_of_mem_toDigits (by decide) (by decide) (List.mem_reverse.mp hc)
  have hlist : (channelLifecycleRevisionId channelId revision).toList.reverse =
      (Nat.toDigits 10 revision).reverse ++ ('r' :: ":elcycefil:".toList ++
        channelId.toList.reverse) := by
    rw [channelLifecycleRevisionId, String.toList_append, String.toList_append, Nat.toList_repr,
      List.reverse_append, List.reverse_append]
    rfl
  have hne : (Nat.toDigits 10 revision) ≠ [] := Nat.toDigits_ne_nil
  simp only [lifecycleNumber, hlist, List.takeWhile_append_of_pos hdigits,
    List.dropWhile_append_of_pos hdigits]
  simp [hne]

theorem channelLifecycleRevisionId_inj {channelId : String} {m n : Nat} :
    channelLifecycleRevisionId channelId m = channelLifecycleRevisionId channelId n ↔ m = n := by
  refine ⟨fun h => ?_, fun h => h ▸ rfl⟩
  have hnumber := congrArg lifecycleNumber h
  rw [lifecycleNumber_id, lifecycleNumber_id] at hnumber
  exact Option.some.inj hnumber

/-! ## The abstract channel -/

/-- **A channel that can be drained.** -/
structure DrainableChannel where
  mode : ChannelLifecycleMode := .accepting
  reason : String := "initial"
  startedAt : String := isoText 0
  drainMode : MediaProviderDrainMode := .accepting
  number : Nat := 0
  flights : Finset String := ∅
  deriving DecidableEq

namespace DrainableChannel

variable (channelId clock : String)

/-- The record of the channel. -/
def view (a : DrainableChannel) : ChannelLifecycleState where
  channelId := channelId
  lifecycleRevision := channelLifecycleRevisionId channelId a.number
  mode := a.mode
  reason := a.reason
  startedAt := a.startedAt
  drainMode := a.drainMode
  inFlightCount := a.flights.card

@[simp] theorem view_mode (a : DrainableChannel) : (a.view channelId).mode = a.mode := rfl

/-- The next revision, with other submissions in flight. -/
def withFlights (a : DrainableChannel) (flights : Finset String) : DrainableChannel :=
  { a with flights, number := a.number + 1 }

/-- The next revision, in another mode. -/
def moved (a : DrainableChannel) (mode : ChannelLifecycleMode) (drainMode : MediaProviderDrainMode)
    (reason startedAt : String) : DrainableChannel :=
  { a with mode, drainMode, reason, startedAt, number := a.number + 1 }

/-- A move of a channel whose revision is as expected. -/
def move (a : DrainableChannel) (mode : ChannelLifecycleMode) (drainMode : MediaProviderDrainMode)
    (reason : String) (now expected : Option String) :
    Except HotAssemblyError (ChannelAnswer × DrainableChannel) :=
  if staleRevision expected (a.view channelId) then
    throw (revisionConflict channelId (expected.getD "") (a.view channelId).lifecycleRevision)
  else
    let next := a.moved mode drainMode reason (now.getD clock)
    pure (.lifecycle (next.view channelId), next)

/-- The end of a drain: nothing is in flight any more. -/
def complete (a : DrainableChannel) (reason : String) (now expected : Option String) :
    Except HotAssemblyError (ChannelAnswer × DrainableChannel) :=
  if a.mode ≠ .draining then
    throw ⟨.CHANNEL_NOT_ACCEPTING, "Channel " ++ channelId ++ " is not draining."⟩
  else if staleRevision expected (a.view channelId) then
    throw (revisionConflict channelId (expected.getD "") (a.view channelId).lifecycleRevision)
  else if a.flights ≠ ∅ then
    throw ⟨.CHANNEL_NOT_ACCEPTING, "Channel " ++ channelId ++ " still has " ++
      toString (a.flights.card : Int) ++ " in-flight submissions."⟩
  else
    let next := a.moved .accepting .accepting reason (now.getD clock)
    pure (.lifecycle (next.view channelId), next)

/-- A submission is admitted once, and only while the channel accepts. -/
def acquire (a : DrainableChannel) (id : String) : ChannelAnswer × DrainableChannel :=
  if id ∈ a.flights then
    (.admission (notAcquired (decideChannelAdmission (a.view channelId) .in_flight) id
      a.flights.card (a.view channelId)), a)
  else if a.mode ≠ .accepting then
    (.admission (notAcquired (decideChannelAdmission (a.view channelId) .new_submit) id
      a.flights.card (a.view channelId)), a)
  else
    let next := a.withFlights (insert id a.flights)
    (.admission (acquired (decideChannelAdmission (a.view channelId) .new_submit) id
      (next.view channelId)), next)

def release (a : DrainableChannel) (id : String) : ChannelAnswer × DrainableChannel :=
  if id ∈ a.flights then
    let next := a.withFlights (a.flights.erase id)
    (.lifecycle (next.view channelId), next)
  else (.lifecycle (a.view channelId), a)

def perform (a : DrainableChannel) :
    ChannelCall → Except HotAssemblyError (ChannelAnswer × DrainableChannel)
  | .acquireChannelSubmission id => pure (a.acquire channelId id)
  | .releaseChannelSubmission id => pure (a.release channelId id)
  | .isolateChannel reason options => a.move channelId clock .isolated .accepting reason
      options.now options.expectedLifecycleRevision
  | .startChannelDrain reason options => a.move channelId clock .draining .draining reason
      options.now options.expectedLifecycleRevision
  | .completeChannelDrain reason now expected => a.complete channelId clock reason now expected
  | .restoreChannel reason now expected =>
    a.move channelId clock .accepting .accepting reason now expected

end DrainableChannel

/-! ## Both implementations refine it -/

/-- A registry shows the channel. -/
def ShownInMemory (channelId : String) (s : MemoryChannel) (a : DrainableChannel) : Prop :=
  CapabilityHotAssemblyRegistry.getChannelLifecycle channelId s = a.view channelId ∧
    s.inFlight = a.flights

/-- The rows show the channel. -/
def ShownInRows (channelId : String) (s : PostgresChannel) (a : DrainableChannel) : Prop :=
  PostgresCapabilityHotAssemblyPort.getChannelLifecycle channelId s = a.view channelId ∧
    s.inFlight = a.flights ∧ (s.row.map (·.revision)).getD 0 = a.number

/-- A call is carried out as the abstract channel says. -/
def CarriedOut {σ : Type} (Shown : σ → DrainableChannel → Prop)
    (perform : EStateM HotAssemblyError σ ChannelAnswer) (s : σ)
    (spec : Except HotAssemblyError (ChannelAnswer × DrainableChannel)) : Prop :=
  Wp perform s (fun answer s' => ∃ a', spec = .ok (answer, a') ∧ Shown s' a')
    fun e s' => spec = .error e ∧ s' = s

/-- **The calls memory carries out as it should**: a drain is completed only of a channel that is
draining, and a count brought along is the count. -/
def CountsAsIs (channelId : String) (s : MemoryChannel) : ChannelCall → Prop
  | .isolateChannel _ options | .startChannelDrain _ options =>
    staleRevision options.expectedLifecycleRevision
        (CapabilityHotAssemblyRegistry.getChannelLifecycle channelId s) = true ∨
      ∀ count ∈ options.inFlightCount, count = s.inFlight.card
  | _ => True

/-- **The calls Postgres carries out as it should.** -/
def CompletesDrains (channelId : String) (s : PostgresChannel) : ChannelCall → Prop
  | .completeChannelDrain _ _ _ =>
    (PostgresCapabilityHotAssemblyPort.getChannelLifecycle channelId s).mode = .draining
  | _ => True

section Memory

open CapabilityHotAssemblyRegistry

variable {channelId clock : String} {s : MemoryChannel} {a : DrainableChannel}

theorem next_of_view (a : DrainableChannel) : nextChannelLifecycleRevisionId (a.view channelId) =
    channelLifecycleRevisionId channelId (a.number + 1) := by
  rw [nextChannelLifecycleRevisionId, DrainableChannel.view, lifecycleNumber_id]

/-- A record not written yet has the revision and the count of the one shown. -/
theorem base_of_shown (h : getChannelLifecycle channelId s = a.view channelId) (now : String) :
    nextChannelLifecycleRevisionId (s.state.getD (initialChannelLifecycle channelId now)) =
      channelLifecycleRevisionId channelId (a.number + 1) ∧
    (s.state.getD (initialChannelLifecycle channelId now)).inFlightCount = a.flights.card := by
  rw [getChannelLifecycle] at h
  cases hs : s.state with
  | some state =>
    rw [hs, Option.getD_some] at h
    rw [Option.getD_some, h, next_of_view]
    exact ⟨rfl, rfl⟩
  | none =>
    rw [hs, Option.getD_none] at h
    have hrevision := congrArg ChannelLifecycleState.lifecycleRevision h
    have hnumber : 0 = a.number := channelLifecycleRevisionId_inj.mp hrevision
    have hcount := congrArg ChannelLifecycleState.inFlightCount h
    rw [Option.getD_none, nextChannelLifecycleRevisionId, initialChannelLifecycle,
      lifecycleNumber_id, ← hnumber]
    exact ⟨rfl, hcount⟩

/-- A transition of the record, in memory. -/
theorem wp_transition_memory (h : ShownInMemory channelId s a) (command : ChannelCommand)
    (options : ChannelCallOptions)
    {spec : Except HotAssemblyError (ChannelAnswer × DrainableChannel)}
    (hstale : staleRevision options.expectedLifecycleRevision (a.view channelId) = true →
      spec = .error (revisionConflict channelId (options.expectedLifecycleRevision.getD "")
        (a.view channelId).lifecycleRevision))
    (hfail : staleRevision options.expectedLifecycleRevision (a.view channelId) = false → ∀ e,
      transitionChannelLifecycle s.state command channelId clock
        { now := options.now, inFlightCount := options.inFlightCount } = .error e →
      spec = .error e)
    (hmoves : staleRevision options.expectedLifecycleRevision (a.view channelId) = false → ∀ next,
      transitionChannelLifecycle s.state command channelId clock
        { now := options.now, inFlightCount := options.inFlightCount } = .ok next →
      ∃ a', spec = .ok (.lifecycle next, a') ∧ next = a'.view channelId ∧ a'.flights = a.flights) :
    Wp (transition channelId clock command options) s
      (fun next s' => ∃ a', spec = .ok (.lifecycle next, a') ∧ ShownInMemory channelId s' a')
      fun e s' => spec = .error e ∧ s' = s := by
  simp only [transition, wp_bind, wp_get, wp_check, wp_set, wp_pure, h.1,
    assertExpectedLifecycleRevision]
  cases hs : staleRevision options.expectedLifecycleRevision (a.view channelId) with
  | true =>
    refine ⟨fun _ hok => ?_, fun e he => ?_⟩
    · simp at hok
    · obtain rfl := Except.error.inj he
      exact ⟨hstale hs, trivial⟩
  | false =>
    refine ⟨fun _ _ => ⟨fun next hnext => ?_, fun e he => ⟨hfail hs e he, trivial⟩⟩, fun e he => ?_⟩
    · obtain ⟨a', hspec, hview, hflights⟩ := hmoves hs next hnext
      exact ⟨a', hspec, hview, h.2.trans hflights.symm⟩
    · cases he

/-- The record a command moves a channel to. -/
def movedRecord (previous : Option ChannelLifecycleState) (channelId clock : String)
    (options : TransitionOptions) (mode : ChannelLifecycleMode)
    (drainMode : MediaProviderDrainMode) (reason : String) : ChannelLifecycleState :=
  let base := previous.getD (initialChannelLifecycle channelId (options.now.getD clock))
  { channelId, mode, reason, drainMode
    lifecycleRevision := options.lifecycleRevision.getD (nextChannelLifecycleRevisionId base)
    startedAt := options.now.getD clock
    inFlightCount := options.inFlightCount.getD base.inFlightCount }

/-- A command that only moves the channel. -/
def OnlyMoves (command : ChannelCommand) (mode : ChannelLifecycleMode)
    (drainMode : MediaProviderDrainMode) (reason : String) : Prop :=
  ∀ previous channelId clock options,
    transitionChannelLifecycle previous command channelId clock options =
      .ok (movedRecord previous channelId clock options mode drainMode reason)

theorem carriedOut_move (h : ShownInMemory channelId s a) {command : ChannelCommand}
    {mode : ChannelLifecycleMode} {drainMode : MediaProviderDrainMode} {reason : String}
    {options : ChannelCallOptions} (hcommand : OnlyMoves command mode drainMode reason)
    (hcount : staleRevision options.expectedLifecycleRevision (a.view channelId) = false →
      ∀ count ∈ options.inFlightCount, count = (s.inFlight.card : Int)) :
    CarriedOut (ShownInMemory channelId) (.lifecycle <$> transition channelId clock command options)
      s (a.move channelId clock mode drainMode reason options.now
        options.expectedLifecycleRevision) := by
  refine (wp_map _).mpr (wp_transition_memory h command options (fun hs => if_pos hs)
    (fun hs e he => ?_) fun hs next hnext => ?_)
  · rw [hcommand] at he
    cases he
  · rw [hcommand] at hnext
    obtain rfl := Except.ok.inj hnext
    obtain ⟨hrevision, hbase⟩ := base_of_shown h.1 (options.now.getD clock)
    have hflights : options.inFlightCount.getD ((s.state.getD (initialChannelLifecycle channelId
        (options.now.getD clock))).inFlightCount) = (a.flights.card : Int) := by
      cases hoption : options.inFlightCount with
      | none => exact hbase
      | some count => exact (hcount hs count hoption).trans (congrArg _ (h.2 ▸ rfl))
    have hview : movedRecord s.state channelId clock
        { now := options.now, inFlightCount := options.inFlightCount } mode drainMode reason =
        (a.moved mode drainMode reason (options.now.getD clock)).view channelId := by
      simp only [movedRecord, Option.getD_none, hrevision, hflights]
      rfl
    refine ⟨_, ?_, hview, rfl⟩
    rw [hview]
    exact if_neg (Bool.eq_false_iff.mp hs)

/-- A channel that is draining has a record. -/
theorem state_of_draining (h : getChannelLifecycle channelId s = a.view channelId)
    (hmode : a.mode = .draining) : s.state = some (a.view channelId) := by
  rw [getChannelLifecycle] at h
  cases hs : s.state with
  | some state => rw [← h, hs, Option.getD_some]
  | none =>
    rw [hs, Option.getD_none] at h
    have hnot : ChannelLifecycleMode.accepting = a.mode := congrArg ChannelLifecycleState.mode h
    rw [hmode] at hnot
    cases hnot

theorem flights_ne_empty : (a.view channelId).inFlightCount > 0 ↔ a.flights ≠ ∅ := by
  rw [DrainableChannel.view, gt_iff_lt, Nat.cast_pos, Finset.card_pos, Finset.nonempty_iff_ne_empty]

theorem carriedOut_complete (h : ShownInMemory channelId s a) (reason : String)
    (now expected : Option String) :
    CarriedOut (ShownInMemory channelId)
      (.lifecycle <$> completeChannelDrain channelId clock reason now expected) s
      (a.complete channelId clock reason now expected) := by
  simp only [CarriedOut, completeChannelDrain, wp_map, wp_bind, wp_get, wp_check]
  by_cases hmode : a.mode = .draining
  · have hstate := state_of_draining h.1 hmode
    refine ⟨fun _ _ => wp_transition_memory h _ _ (fun hs => ?_) (fun hs e he => ?_)
      fun hs next hnext => ?_, fun e he => ?_⟩
    · rw [DrainableChannel.complete, if_neg (not_not.mpr hmode)]
      exact if_pos hs
    · rw [hstate, transitionChannelLifecycle, Option.getD_some] at he
      rw [DrainableChannel.complete, if_neg (not_not.mpr hmode), if_neg (Bool.eq_false_iff.mp hs)]
      split at he
      · next hpos =>
        rw [if_pos (flights_ne_empty.mp hpos)]
        obtain rfl := Except.error.inj he
        rfl
      · cases he
    · rw [hstate, transitionChannelLifecycle, Option.getD_some] at hnext
      rw [DrainableChannel.complete, if_neg (not_not.mpr hmode), if_neg (Bool.eq_false_iff.mp hs)]
      split at hnext
      · cases hnext
      · next hzero =>
        have hempty : ¬ a.flights ≠ ∅ := fun hne => hzero (flights_ne_empty.mpr hne)
        have hview : next = (a.moved .accepting .accepting reason (now.getD clock)).view
            channelId := by
          obtain rfl := Except.ok.inj hnext
          simp only [Option.getD_none, next_of_view]
          simp only [DrainableChannel.view, DrainableChannel.moved, not_not.mp hempty,
            Finset.card_empty, Nat.cast_zero]
        rw [if_neg hempty]
        exact ⟨_, by rw [hview]; rfl, hview, rfl⟩
    · simp only [requireDraining, hstate] at he
      rw [DrainableChannel.view_mode, if_neg (not_not.mpr hmode)] at he
      cases he
  · have hrequire : requireDraining channelId s =
        .error ⟨.CHANNEL_NOT_ACCEPTING, "Channel " ++ channelId ++ " is not draining."⟩ := by
      have hshown := h.1
      rw [getChannelLifecycle] at hshown
      rw [requireDraining]
      cases hs : s.state with
      | none => rfl
      | some state =>
        rw [hs, Option.getD_some] at hshown
        exact if_pos (hshown ▸ hmode)
    refine ⟨fun _ hok => ?_, fun e he => ?_⟩
    · rw [hrequire] at hok
      cases hok
    · rw [hrequire] at he
      obtain rfl := Except.error.inj he
      exact ⟨if_pos hmode, trivial⟩

theorem admitted_iff {state : ChannelLifecycleState} :
    (decideChannelAdmission state .new_submit).admitted = true ↔ state.mode = .accepting := by
  rw [decideChannelAdmission]
  split
  · next h => exact ⟨fun _ => h, fun _ => rfl⟩
  · next h =>
    rw [if_neg (by decide)]
    split <;> exact ⟨fun hfalse => absurd hfalse Bool.false_ne_true, fun hmode => absurd hmode h⟩

/-- The record with other submissions in flight. -/
theorem recounted (a : DrainableChannel) (flights : Finset String) :
    transitionChannelLifecycle (some (a.view channelId)) (.set_in_flight flights.card) channelId
      clock {} = .ok ((a.withFlights flights).view channelId) := by
  rw [transitionChannelLifecycle, Option.getD_some, Option.getD_none, next_of_view]
  rfl

theorem carriedOut_acquire (h : ShownInMemory channelId s a) (id : String) :
    CarriedOut (ShownInMemory channelId)
      (.admission <$> acquireChannelSubmission channelId clock id) s
      (pure (a.acquire channelId id)) := by
  simp only [CarriedOut, acquireChannelSubmission, wp_map, wp_bind, wp_get, wp_ite, wp_check,
    wp_pure, wp_set, h.1, h.2, admitted_iff, DrainableChannel.view_mode, recounted,
    DrainableChannel.acquire]
  refine ⟨fun hid => ?_, fun hid => ⟨fun hmode => ?_, fun hmode => ⟨?_, by rintro _ ⟨⟩⟩⟩⟩
  · rw [if_pos hid]
    exact ⟨a, rfl, h⟩
  · rw [if_neg hid, if_pos hmode]
    exact ⟨a, rfl, h⟩
  · rintro _ hnext
    obtain rfl := Except.ok.inj hnext
    rw [if_neg hid, if_neg hmode]
    exact ⟨_, rfl, rfl, rfl⟩

theorem carriedOut_release (h : ShownInMemory channelId s a) (id : String) :
    CarriedOut (ShownInMemory channelId)
      (.lifecycle <$> releaseChannelSubmission channelId clock id) s
      (pure (a.release channelId id)) := by
  simp only [CarriedOut, releaseChannelSubmission, wp_map, wp_bind, wp_get, wp_ite, wp_check,
    wp_pure, wp_set, h.1, h.2, recounted, DrainableChannel.release]
  refine ⟨fun hid => ?_, fun hid => ⟨?_, by rintro _ ⟨⟩⟩⟩
  · rw [if_neg hid]
    exact ⟨a, rfl, h⟩
  · rintro _ hnext
    obtain rfl := Except.ok.inj hnext
    rw [if_pos (not_not.mp hid)]
    exact ⟨_, rfl, rfl, rfl⟩

/-- **Memory refines the abstract channel**, at the calls that bring no count of their own. -/
theorem carriedOut_memory (h : ShownInMemory channelId s a) (call : ChannelCall)
    (hcounts : CountsAsIs channelId s call) :
    CarriedOut (ShownInMemory channelId) (perform channelId clock call) s
      (a.perform channelId clock call) := by
  cases call with
  | acquireChannelSubmission id => exact carriedOut_acquire h id
  | releaseChannelSubmission id => exact carriedOut_release h id
  | isolateChannel reason options =>
    refine carriedOut_move h (fun _ _ _ _ => rfl) fun hs => hcounts.resolve_left ?_
    rw [h.1, hs]
    exact Bool.false_ne_true
  | startChannelDrain reason options =>
    refine carriedOut_move h (fun _ _ _ _ => rfl) fun hs => hcounts.resolve_left ?_
    rw [h.1, hs]
    exact Bool.false_ne_true
  | completeChannelDrain reason now expected => exact carriedOut_complete h reason now expected
  | restoreChannel reason now expected =>
    exact carriedOut_move h (fun _ _ _ _ => rfl) fun _ _ hnone => absurd hnone nofun

end Memory

section Rows

open PostgresCapabilityHotAssemblyPort

variable {channelId clock : String} {s : PostgresChannel} {a : DrainableChannel}

/-- Under the lock the channel is read as it is shown. -/
theorem read_of_shown (h : ShownInRows channelId s a) :
    lifecycleState channelId (readLockedLifecycle channelId s) = a.view channelId ∧
      nextRevision (readLockedLifecycle channelId s) = a.number + 1 ∧
      ((readLockedLifecycle channelId s).map (·.inFlightCount)).getD 0 = a.flights.card := by
  obtain ⟨hview, hflights, hnumber⟩ := h
  rw [getChannelLifecycle] at hview
  rw [readLockedLifecycle, nextRevision]
  cases hrow : s.row with
  | some row =>
    simp only [hrow, Option.map_some, Option.getD_some] at hview hnumber ⊢
    exact ⟨hview, congrArg (· + 1) hnumber, congrArg _ hflights⟩
  | none =>
    simp only [hrow, Option.map_none, Option.getD_none] at hview hnumber ⊢
    have hcount : (0 : Int) = a.flights.card := congrArg ChannelLifecycleState.inFlightCount hview
    have hzero : ¬ s.inFlight.card > 0 := by
      rw [hflights]
      omega
    rw [if_neg hzero]
    exact ⟨hview, congrArg (· + 1) hnumber, Int.ofNat_inj.mp hcount⟩

/-- What is written is shown. -/
theorem shownInRows_written (a : DrainableChannel) :
    ShownInRows channelId ⟨some ⟨a.view channelId, a.number⟩, a.flights⟩ a := ⟨rfl, rfl, rfl⟩

theorem carriedOut_rows_move (h : ShownInRows channelId s a) {command : ChannelCommand}
    {mode : ChannelLifecycleMode} {drainMode : MediaProviderDrainMode} {reason : String}
    {options : ChannelCallOptions} (hcommand : OnlyMoves command mode drainMode reason) :
    CarriedOut (ShownInRows channelId) (.lifecycle <$> transition channelId clock command options)
      s (a.move channelId clock mode drainMode reason options.now
        options.expectedLifecycleRevision) := by
  obtain ⟨hstate, hnumber, hcount⟩ := read_of_shown h
  simp only [CarriedOut, transition, wp_map, wp_transaction, wp_bind, wp_get, wp_ite, wp_throw,
    wp_check, wp_set, wp_pure, hstate, hnumber, hcount]
  rw [hcommand]
  refine ⟨fun hs => ⟨if_pos hs, trivial⟩, fun hs => ⟨fun next hnext => ?_, by rintro _ ⟨⟩⟩⟩
  obtain rfl := Except.ok.inj hnext
  have hview : movedRecord (some (a.view channelId)) channelId clock
      { now := options.now, inFlightCount := some (a.flights.card : Nat)
        lifecycleRevision := some (channelLifecycleRevisionId channelId (a.number + 1)) }
      mode drainMode reason =
      (a.moved mode drainMode reason (options.now.getD clock)).view channelId := rfl
  rw [hview, h.2.1]
  exact ⟨_, if_neg hs, shownInRows_written _⟩

theorem carriedOut_rows_complete (h : ShownInRows channelId s a) (reason : String)
    (now expected : Option String) (hmode : a.mode = .draining) :
    CarriedOut (ShownInRows channelId)
      (.lifecycle <$> completeChannelDrain channelId clock reason now expected) s
      (a.complete channelId clock reason now expected) := by
  obtain ⟨hstate, hnumber, _⟩ := read_of_shown h
  simp only [CarriedOut, completeChannelDrain, transition, wp_map, wp_transaction, wp_bind, wp_get,
    wp_ite, wp_throw, wp_check, wp_set, wp_pure, hstate, hnumber, DrainableChannel.complete,
    transitionChannelLifecycle, Option.getD_some, flights_ne_empty]
  rw [if_neg (not_not.mpr hmode)]
  refine ⟨fun hs => ⟨if_pos hs, trivial⟩, fun hs => ⟨fun next hnext => ?_, fun e he => ?_⟩⟩
  · split at hnext
    · cases hnext
    · next hempty =>
      have hview : next = (a.moved .accepting .accepting reason (now.getD clock)).view
          channelId := by
        obtain rfl := Except.ok.inj hnext
        simp only [DrainableChannel.view, DrainableChannel.moved, not_not.mp hempty,
          Finset.card_empty, Nat.cast_zero]
      rw [if_neg hs, if_neg hempty, hview, h.2.1]
      exact ⟨_, rfl, shownInRows_written _⟩
  · split at he
    · next hne =>
      obtain rfl := Except.error.inj he
      rw [if_neg hs, if_pos hne]
      exact ⟨rfl, trivial⟩
    · cases he

theorem recount_of_shown {current : Option ReadLifecycleRow}
    (hstate : lifecycleState channelId current = a.view channelId)
    (hnumber : nextRevision current = a.number + 1) (flights : Finset String) :
    recount channelId clock current flights.card =
      .ok ((a.withFlights flights).view channelId) := by
  rw [recount, hstate, hnumber]
  rfl

theorem carriedOut_rows_acquire (h : ShownInRows channelId s a) (id : String) :
    CarriedOut (ShownInRows channelId)
      (.admission <$> acquireChannelSubmission channelId clock id) s
      (pure (a.acquire channelId id)) := by
  obtain ⟨hstate, hnumber, _⟩ := read_of_shown h
  simp only [CarriedOut, acquireChannelSubmission, wp_map, wp_transaction, wp_bind, wp_get, wp_ite,
    wp_check, wp_pure, wp_set, hstate, h.2.1, admitted_iff, DrainableChannel.view_mode, hnumber,
    DrainableChannel.acquire]
  refine ⟨fun hid => ?_, fun hid => ⟨fun hmode => ?_, fun hmode => ?_⟩⟩
  · rw [if_pos hid]
    exact ⟨a, rfl, h⟩
  · rw [if_neg hid, if_pos hmode]
    exact ⟨a, rfl, h⟩
  · have hcard : (a.view channelId).inFlightCount + 1 = ((insert id a.flights).card : Int) := by
      rw [Finset.card_insert_of_notMem hid]
      rfl
    rw [hcard, recount_of_shown hstate hnumber, if_neg hid, if_neg hmode]
    refine ⟨fun next hnext => ?_, by rintro _ ⟨⟩⟩
    obtain rfl := Except.ok.inj hnext
    exact ⟨_, rfl, shownInRows_written (a.withFlights (insert id a.flights))⟩

theorem carriedOut_rows_release (h : ShownInRows channelId s a) (id : String) :
    CarriedOut (ShownInRows channelId)
      (.lifecycle <$> releaseChannelSubmission channelId clock id) s
      (pure (a.release channelId id)) := by
  obtain ⟨hstate, hnumber, _⟩ := read_of_shown h
  simp only [CarriedOut, releaseChannelSubmission, wp_map, wp_transaction, wp_bind, wp_get, wp_ite,
    wp_check, wp_pure, wp_set, hstate, h.2.1, hnumber, DrainableChannel.release]
  refine ⟨fun hid => ?_, fun hid => ?_⟩
  · rw [if_neg hid]
    exact ⟨a, rfl, h⟩
  · have hcard : max 0 ((a.view channelId).inFlightCount - 1) =
        ((a.flights.erase id).card : Int) := by
      have hone := Finset.card_erase_add_one (not_not.mp hid)
      have hview : (a.view channelId).inFlightCount = a.flights.card := rfl
      rw [hview]
      omega
    rw [hcard, recount_of_shown hstate hnumber, if_pos (not_not.mp hid)]
    refine ⟨fun next hnext => ?_, by rintro _ ⟨⟩⟩
    obtain rfl := Except.ok.inj hnext
    exact ⟨_, rfl, shownInRows_written (a.withFlights (a.flights.erase id))⟩

/-- **Postgres refines the abstract channel**, where only drains are completed. -/
theorem carriedOut_rows (h : ShownInRows channelId s a) (call : ChannelCall)
    (hdrains : CompletesDrains channelId s call) :
    CarriedOut (ShownInRows channelId) (perform channelId clock call) s
      (a.perform channelId clock call) := by
  cases call with
  | acquireChannelSubmission id => exact carriedOut_rows_acquire h id
  | releaseChannelSubmission id => exact carriedOut_rows_release h id
  | isolateChannel reason options => exact carriedOut_rows_move h fun _ _ _ _ => rfl
  | startChannelDrain reason options => exact carriedOut_rows_move h fun _ _ _ _ => rfl
  | completeChannelDrain reason now expected =>
    have hmode : a.mode = .draining := by
      rw [← DrainableChannel.view_mode channelId, ← h.1]
      exact hdrains
    exact carriedOut_rows_complete h reason now expected hmode
  | restoreChannel reason now expected => exact carriedOut_rows_move h fun _ _ _ _ => rfl

end Rows

end MeiyeAgent
