import MeiyeAgent.Machinery.SideBySide
import MeiyeAgent.Machinery.Sights
import MeiyeAgent.SupplyRegistry.HealthOverlay
import Mathlib.Data.List.Find

/-!
# SupplyRegistry/BlockedTargets — a failure never frees a target, and a look never does anything

A target is blocked at an instant if a look then would find it in a blocking state.  The two laws
hold where a look finds no window that is over, and where what is left of a block is no longer than
the window of the failure that meets it (`HealthFailureFactKind.Outlasts`); `blocksHold` carries both
over a run.
-/

namespace MeiyeAgent

open Effect

section Blocks

variable (parse : String → Option Int)

/-! ## Blocked at an instant -/

/-- A record that blocks at an instant. -/
def HealthOverlayRecord.blocksAt (record : HealthOverlayRecord) (t : Int) : Bool :=
  isHealthOverlayBlocking record.state && !windowElapsed parse record t

/-- **Blocked for new tasks** at an instant. -/
def BlockedAt (s : HealthStore) (kind : HealthTargetKind) (id : String) (t : Int) : Prop :=
  (s.get? (healthOverlayTargetKey kind id)).any (·.record.blocksAt parse t) = true

instance (s : HealthStore) (kind : HealthTargetKind) (id : String) (t : Int) :
    Decidable (BlockedAt parse s kind id t) := inferInstanceAs (Decidable (_ = true))

/-- The facts that report a failure. -/
def HealthFailureFactKind.isFailure : HealthFailureFactKind → Bool
  | .success | .manual_clear | .manual_degraded => false
  | _ => true

/-- The calls that may unblock a target. -/
def HealthCall.Releases (kind : HealthTargetKind) (id : String) : HealthCall → Prop
  | .get _ _ | .list _ => False
  | .upsert record => record.targetKind = kind ∧ record.targetId = id
  | .clear kind' id' => kind' = kind ∧ id' = id
  | .reportFact fact => fact.targetKind = kind ∧ fact.targetId = id ∧ fact.kind.isFailure = false

/-- A call that only looks. -/
def HealthCall.isLook : HealthCall → Bool
  | .get _ _ | .list _ => true
  | _ => false

/-! ## When the laws hold -/

/-- A look finds no window that is over. -/
def LooksInTime (s : HealthStore) : HealthStep → Prop
  | (nowMs, .get kind id) => ∀ stored, s.get? (healthOverlayTargetKey kind id) = some stored →
      windowElapsed parse stored.record nowMs = false
  | _ => True

/-- A verdict is as long as the block of a record. -/
def HealthVerdict.ReachesAsFar (verdict : HealthVerdict) (record : HealthOverlayRecord)
    (nowMs : Int) : Prop :=
  verdict.state = .unavailable ∨ ∃ seconds ∈ verdict.windowSeconds,
    ∃ till ∈ record.windowEnd parse, till ≤ nowMs + seconds * 1000

/-- The block of a record ends, in so many seconds at most. -/
def HealthOverlayRecord.LeftAtMost (record : HealthOverlayRecord) (nowMs seconds : Int) : Prop :=
  ∃ till ∈ record.windowEnd parse, till - nowMs ≤ seconds * 1000

/-- **What may be left of a block** when a failure of a kind meets it: any of it where the target
becomes unavailable; the seconds of a cooldown where one starts at once; and at an error of the
server those of the threshold the counters reach with it, so that one is reached at all. -/
def HealthFailureFactKind.Outlasts (limits : HealthLimits) (counters : HealthOverlayCounters)
    (record : HealthOverlayRecord) (nowMs : Int) : HealthFailureFactKind → Prop
  | .rate_limited | .hard_failure | .accepted_failure | .acceptance_unknown =>
    record.LeftAtMost parse nowMs limits.cooldownTimeSeconds
  | .server_error | .connection_error =>
    if limits.consecutive5xx ≤ counters.consecutive5xx + 1 then
      record.LeftAtMost parse nowMs limits.baseEjectionTimeSeconds
    else limits.allowedFails ≤ counters.consecutiveFails + 1 ∧
      record.LeftAtMost parse nowMs limits.cooldownTimeSeconds
  | _ => True

/-- A failure outlasts the block it meets. -/
def FailureOutlasts (s : HealthStore) : HealthStep → Prop
  | (nowMs, .reportFact fact) => ∀ stored,
      s.get? (healthOverlayTargetKey fact.targetKind fact.targetId) = some stored →
      stored.record.blocksAt parse nowMs = true →
      fact.kind.Outlasts parse {} stored.counters stored.record nowMs
  | _ => True

def HealthMet (s : HealthStore) (step : HealthStep) : Prop :=
  LooksInTime parse s step ∧ FailureOutlasts parse s step

/-- `Date.parse` reads what `toISOString` prints. -/
def ReadsInstants : Prop := ∀ ms, (timeClip ms).isSome → parse (isoText ms) = some ms

end Blocks

/-! ## What one call leaves -/

variable {parse : String → Option Int} {s : HealthStore} {nowMs t : Int} {step : HealthStep}
  {record r : HealthOverlayRecord} {kind : HealthTargetKind} {id : String}

theorem resolve_of_not_elapsed (h : windowElapsed parse record nowMs = false) :
    resolveHealthOverlayRecord parse record nowMs = .ok record := by
  rw [resolveHealthOverlayRecord, h, if_neg Bool.false_ne_true]
  rfl

/-- What is resolved is healthy, and of the same target, where the window is over. -/
theorem resolve_of_elapsed (h : windowElapsed parse record nowMs = true)
    (hr : resolveHealthOverlayRecord parse record nowMs = .ok r) :
    r.state = .healthy ∧ r.targetKind = record.targetKind ∧ r.targetId = record.targetId := by
  rw [resolveHealthOverlayRecord, if_pos h] at hr
  simp only [bind_eq_ok, pure_eq_ok] at hr
  obtain ⟨_, _, rfl⟩ := hr
  exact ⟨rfl, rfl, rfl⟩

/-- A window that is over stays over. -/
theorem windowElapsed_mono (h : nowMs ≤ t) (he : windowElapsed parse record nowMs = true) :
    windowElapsed parse record t = true := by
  rw [windowElapsed, Option.any_eq_true] at he ⊢
  obtain ⟨till, htill, hle⟩ := he
  exact ⟨till, htill, decide_eq_true ((of_decide_eq_true hle).trans h)⟩

theorem blocksAt_iff : record.blocksAt parse t = true ↔
    isHealthOverlayBlocking record.state = true ∧ windowElapsed parse record t = false := by
  rw [HealthOverlayRecord.blocksAt, Bool.and_eq_true, Bool.not_eq_true']

/-- What blocks later blocks now. -/
theorem blocksAt_anti (h : nowMs ≤ t) (hb : record.blocksAt parse t = true) :
    record.blocksAt parse nowMs = true := by
  rw [blocksAt_iff] at hb ⊢
  refine ⟨hb.1, Bool.eq_false_iff.mpr fun he => ?_⟩
  exact absurd (windowElapsed_mono h he) (Bool.eq_false_iff.mp hb.2)

theorem blockedAt_iff : BlockedAt parse s kind id t ↔ ∃ stored,
    s.get? (healthOverlayTargetKey kind id) = some stored ∧
      stored.record.blocksAt parse t = true := Option.any_eq_true _ _

/-- **What a `get` leaves**: the state as it was, or a record whose window is over made healthy. -/
theorem wp_healthGet : Wp (MemoryHealthOverlayPort.get parse nowMs kind id) s
    (fun _ s' => s' = s ∨ ∃ stored resolved counters,
      s.get? (healthOverlayTargetKey kind id) = some stored ∧
      windowElapsed parse stored.record nowMs = true ∧
      resolveHealthOverlayRecord parse stored.record nowMs = .ok resolved ∧
      s' = s.set (healthOverlayTargetKey kind id) ⟨resolved, counters⟩)
    fun _ s' => s' = s := by
  rw [MemoryHealthOverlayPort.get, wp_bind, Effect.wp_get]
  cases hget : s.get? (healthOverlayTargetKey kind id) with
  | none => exact (wp_pure _).mpr (.inl rfl)
  | some stored =>
    simp only [wp_bind, wp_check, wp_ite, wp_modify, wp_pure]
    refine ⟨fun resolved hr => ⟨fun hne => ?_, fun _ => .inl trivial⟩, fun _ _ => trivial⟩
    refine .inr ⟨stored, resolved, _, rfl, ?_, hr, rfl⟩
    by_contra helapsed
    rw [resolve_of_not_elapsed (Bool.eq_false_iff.mpr helapsed)] at hr
    exact hne (Except.ok.inj hr ▸ rfl)

theorem final_list (filter : Option HealthTargetKind) :
    final (MemoryHealthOverlayPort.list parse nowMs filter) s = s := by
  refine (wp_final (I := (· = s))).mp ?_
  rw [MemoryHealthOverlayPort.list, wp_bind, Effect.wp_get, wp_check]
  exact ⟨fun _ _ => rfl, fun _ _ => rfl⟩

/-- **What a fact leaves**: its verdict on the counters that stood. -/
theorem wp_reportFact (fact : HealthFailureFact) :
    Wp (MemoryHealthOverlayPort.reportFact parse nowMs fact) s
      (fun _ s' => ∃ next,
        applyHealthFailureFact parse
          (s.get? (healthOverlayTargetKey fact.targetKind fact.targetId)) fact nowMs {} = .ok next ∧
        s' = s.set (healthOverlayTargetKey fact.targetKind fact.targetId) next)
      fun _ s' => s' = s := by
  simp only [MemoryHealthOverlayPort.reportFact, wp_bind, Effect.wp_get, wp_check, Effect.wp_set,
    wp_pure]
  exact ⟨fun next hnext => ⟨next, hnext, rfl⟩, fun _ _ => trivial⟩

/-! ## A failure keeps a block -/

theorem isoText_ne_empty (ms : Int) : isoText ms ≠ "" := by
  intro h
  have hlist : (isoText ms).toList = [] := congrArg String.toList h
  rw [isoText, String.toList_ofList] at hlist
  exact absurd (List.append_eq_nil_iff.mp hlist).2 (List.cons_ne_nil _ _)

/-- What `toISOString` prints is the end of the window it is written as. -/
theorem windowEnd_of_toIso (hparse : ReadsInstants parse) {text : String} (h : toIso t = .ok text)
    (hstate : record.state = .cooldown ∨ record.state = .circuit_open)
    (hends : record.endsAt = some text) : record.windowEnd parse = some t := by
  rw [toIso] at h
  split at h
  · next hclip =>
    obtain rfl := Except.ok.inj h
    have htruthy : truthy (some (isoText t)) = some (isoText t) :=
      Option.filter_some_pos (decide_eq_true (isoText_ne_empty t))
    rw [HealthOverlayRecord.windowEnd, if_pos hstate, hends, htruthy]
    exact hparse t hclip
  · exact absurd h (by simp)

variable {limits : HealthLimits}

/-- A verdict with a window blocks. -/
theorem state_of_windowSeconds {counters : HealthOverlayCounters} {fact : HealthFailureFactKind}
    {seconds : Int} (h : (fact.verdict limits counters).windowSeconds = some seconds) :
    (fact.verdict limits counters).state = .cooldown ∨
      (fact.verdict limits counters).state = .circuit_open := by
  revert h
  cases fact <;> simp only [HealthFailureFactKind.verdict] <;> (repeat' split) <;> simp

/-- **What a fact writes**: the verdict, and the end of its window. -/
theorem apply_eq_ok {previous : Option StoredHealthOverlay} {fact : HealthFailureFact}
    {next : StoredHealthOverlay}
    (h : applyHealthFailureFact parse previous fact nowMs limits = .ok next) :
    ∃ verdict, verdict = fact.kind.verdict limits ((previous.map (·.counters)).getD {}) ∧
      next.record.targetKind = fact.targetKind ∧ next.record.targetId = fact.targetId ∧
      next.record.state = verdict.state ∧ next.counters = verdict.counters ∧
      verdict.windowSeconds.mapM (fun seconds => toIso (nowMs + seconds * 1000)) =
        .ok next.record.endsAt := by
  simp only [applyHealthFailureFact, bind_eq_ok, pure_eq_ok] at h
  obtain ⟨_, _, counters, hcounters, endsAt, hends, rfl⟩ := h
  obtain rfl : counters = (previous.map (·.counters)).getD {} := by
    cases previous with
    | none => exact (Except.ok.inj hcounters).symm
    | some previous =>
      simp only [baseCounters, bind_eq_ok, pure_eq_ok] at hcounters
      obtain ⟨_, _, hcounters⟩ := hcounters
      exact hcounters.symm
  exact ⟨_, rfl, rfl, rfl, rfl, rfl, hends⟩

/-- The verdict on a failure that outlasts a block is as long as the block. -/
theorem reachesAsFar_of_outlasts {counters : HealthOverlayCounters} {fact : HealthFailureFactKind}
    (hfailure : fact.isFailure = true) (h : fact.Outlasts parse limits counters record nowMs) :
    (fact.verdict limits counters).ReachesAsFar parse record nowMs := by
  have hreach {seconds : Int} {verdict : HealthVerdict}
      (hwindow : verdict.windowSeconds = some seconds)
      (hleft : record.LeftAtMost parse nowMs seconds) :
      verdict.ReachesAsFar parse record nowMs := by
    obtain ⟨till, htill, hle⟩ := hleft
    exact .inr ⟨seconds, hwindow, till, htill, by omega⟩
  cases fact with
  | success | manual_clear | manual_degraded => cases hfailure
  | probe_unavailable | manual_unavailable => exact .inl rfl
  | rate_limited | hard_failure | accepted_failure | acceptance_unknown => exact hreach rfl h
  | server_error | connection_error =>
    rw [HealthFailureFactKind.Outlasts] at h
    rw [HealthFailureFactKind.verdict]
    by_cases hcircuit : limits.consecutive5xx ≤ counters.consecutive5xx + 1
    · rw [if_pos hcircuit] at h ⊢
      exact hreach rfl h
    · rw [if_neg hcircuit] at h ⊢
      rw [if_pos h.1]
      exact hreach rfl h.2

/-- **A verdict as long as the block keeps it.** -/
theorem blocksAt_of_reachesAsFar (hparse : ReadsInstants parse) {verdict : HealthVerdict}
    (hwindow : ∀ seconds, verdict.windowSeconds = some seconds →
      verdict.state = .cooldown ∨ verdict.state = .circuit_open)
    (hends : verdict.windowSeconds.mapM (fun seconds => toIso (nowMs + seconds * 1000)) =
      .ok r.endsAt) (hstate : r.state = verdict.state)
    (hreach : verdict.ReachesAsFar parse record nowMs)
    (hblocks : record.blocksAt parse t = true) : r.blocksAt parse t = true := by
  rw [blocksAt_iff] at hblocks ⊢
  rcases hreach with hunavailable | ⟨seconds, hseconds, till, htill, hle⟩
  · rw [hstate, hunavailable, windowElapsed, HealthOverlayRecord.windowEnd, hstate, hunavailable]
    exact ⟨rfl, rfl⟩
  · have hopen := hwindow seconds hseconds
    rw [Option.mem_def] at hseconds htill
    rw [hseconds] at hends
    rcases mapM_eq_ok.mp hends with ⟨hnone, _⟩ | ⟨_, text, hsome, htext, hiso⟩
    · exact absurd hnone (Option.some_ne_none _)
    · obtain rfl := Option.some.inj hsome
      rw [← hstate] at hopen
      have hend := windowEnd_of_toIso hparse hiso hopen htext
      refine ⟨?_, ?_⟩
      · rcases hopen with hopen | hopen <;> rw [hopen] <;> rfl
      · have hlate : ¬ till ≤ t := by
          have h := hblocks.2
          rw [windowElapsed, htill] at h
          exact of_decide_eq_false h
        rw [windowElapsed, hend]
        exact decide_eq_false (by omega)

/-- **One call**: what neither releases a target nor cuts its block short keeps it blocked. -/
theorem blockedAt_step (hparse : ReadsInstants parse) (hmet : FailureOutlasts parse s step)
    (ht : step.1 ≤ t) (hrel : ¬ step.2.Releases kind id) (h : BlockedAt parse s kind id t) :
    BlockedAt parse (healthStep parse s step) kind id t := by
  obtain ⟨stored, hstored, hblocks⟩ := blockedAt_iff.mp h
  obtain ⟨nowMs, call⟩ := step
  have hother {key : String} {next : StoredHealthOverlay}
      (hne : healthOverlayTargetKey kind id ≠ key) : BlockedAt parse (s.set key next) kind id t :=
    blockedAt_iff.mpr ⟨stored, (OrderedMap.get?_set_ne hne).trans hstored, hblocks⟩
  cases call with
  | get kind' id' =>
    refine (wp_final (I := fun s' => BlockedAt parse s' kind id t)).mp ((wp_map _).mpr ?_)
    refine wp_healthGet.mono (fun _ s' hs' => ?_) fun _ s' hs' => hs' ▸ h
    rcases hs' with rfl | ⟨stored', resolved, counters, hstored', helapsed, _, rfl⟩
    · exact h
    · refine hother fun hkey => ?_
      -- the window written back is over, so it was not what blocks
      rw [← hkey, hstored] at hstored'
      obtain rfl := Option.some.inj hstored'
      have hover := windowElapsed_mono ht helapsed
      exact absurd hover (Bool.eq_false_iff.mp (blocksAt_iff.mp hblocks).2)
  | list filter =>
    have hsame : healthStep parse s (nowMs, .list filter) = s :=
      (final_map _).trans (final_list filter)
    rwa [hsame]
  | upsert record =>
    refine hother fun hkey => hrel ?_
    obtain ⟨rfl, rfl⟩ := healthOverlayTargetKey_inj.mp hkey
    exact ⟨rfl, rfl⟩
  | clear kind' id' =>
    refine blockedAt_iff.mpr ⟨stored, ?_, hblocks⟩
    refine OrderedMap.get?_erase.trans ((if_neg fun hkey => hrel ?_).trans hstored)
    obtain ⟨rfl, rfl⟩ := healthOverlayTargetKey_inj.mp hkey
    exact ⟨rfl, rfl⟩
  | reportFact fact =>
    refine (wp_final (I := fun s' => BlockedAt parse s' kind id t)).mp ((wp_map _).mpr ?_)
    refine (wp_reportFact fact).mono (fun _ s' hs' => ?_) fun _ s' hs' => hs' ▸ h
    obtain ⟨next, hnext, rfl⟩ := hs'
    by_cases hkey : healthOverlayTargetKey kind id =
        healthOverlayTargetKey fact.targetKind fact.targetId
    · obtain ⟨rfl, rfl⟩ := healthOverlayTargetKey_inj.mp hkey
      have hfailure : fact.kind.isFailure = true := by
        by_contra hnot
        exact hrel ⟨rfl, rfl, Bool.eq_false_iff.mpr hnot⟩
      have hreach := reachesAsFar_of_outlasts hfailure
        (hmet stored hstored (blocksAt_anti ht hblocks))
      rw [hstored] at hnext
      obtain ⟨verdict, hverdict, _, _, hstate, _, hends⟩ := apply_eq_ok hnext
      refine blockedAt_iff.mpr ⟨next, OrderedMap.get?_set_self, ?_⟩
      refine blocksAt_of_reachesAsFar hparse ?_ hends hstate (hverdict ▸ hreach) hblocks
      exact hverdict ▸ fun seconds hseconds => state_of_windowSeconds hseconds
    · exact hother hkey

/-! ## A look in time changes nothing -/

theorem healthStep_of_look (hmet : LooksInTime parse s step) (hlook : step.2.isLook = true) :
    healthStep parse s step = s := by
  obtain ⟨nowMs, call⟩ := step
  cases call with
  | get kind id =>
    refine (wp_final (I := (· = s))).mp ((wp_map _).mpr ?_)
    refine wp_healthGet.mono (fun _ s' hs' => ?_) fun _ s' hs' => hs'
    rcases hs' with rfl | ⟨stored, _, _, hstored, helapsed, _, rfl⟩
    · rfl
    · exact absurd helapsed (Bool.eq_false_iff.mp (hmet stored hstored))
  | list filter => exact (final_map _).trans (final_list filter)
  | upsert record => exact absurd hlook Bool.false_ne_true
  | clear kind id => exact absurd hlook Bool.false_ne_true
  | reportFact fact => exact absurd hlook Bool.false_ne_true

/-! ## `get` and `list` agree -/

/-- Every record stands under its own target. -/
def TargetKeyed (s : HealthStore) : Prop := ∀ key stored, s.get? key = some stored →
  key = healthOverlayTargetKey stored.record.targetKind stored.record.targetId

theorem TargetKeyed.set (h : TargetKeyed s) {stored : StoredHealthOverlay} {key : String}
    (hkey : key = healthOverlayTargetKey stored.record.targetKind stored.record.targetId) :
    TargetKeyed (s.set key stored) := by
  exact OrderedMap.forall_get?_set hkey h

theorem keyed_healthStep (h : TargetKeyed s) : TargetKeyed (healthStep parse s step) := by
  obtain ⟨nowMs, call⟩ := step
  cases call with
  | get kind id =>
    refine (wp_final (I := TargetKeyed)).mp ((wp_map _).mpr ?_)
    refine wp_healthGet.mono (fun _ s' hs' => ?_) fun _ s' hs' => hs' ▸ h
    rcases hs' with rfl | ⟨stored, resolved, _, hstored, helapsed, hr, rfl⟩
    · exact h
    · obtain ⟨_, hkind, hid⟩ := resolve_of_elapsed helapsed hr
      exact h.set ((h _ stored hstored).trans (hkind ▸ hid ▸ rfl))
  | list filter =>
    have hsame : healthStep parse s (nowMs, .list filter) = s :=
      (final_map _).trans (final_list filter)
    rwa [hsame]
  | upsert record => exact h.set rfl
  | clear kind id =>
    intro key stored hget
    refine h key stored ?_
    have herase : (s.erase (healthOverlayTargetKey kind id)).get? key = some stored := hget
    rw [OrderedMap.get?_erase] at herase
    split at herase
    · exact absurd herase (Option.some_ne_none _).symm
    · exact herase
  | reportFact fact =>
    refine (wp_final (I := TargetKeyed)).mp ((wp_map _).mpr ?_)
    refine (wp_reportFact fact).mono (fun _ s' hs' => ?_) fun _ s' hs' => hs' ▸ h
    obtain ⟨next, hnext, rfl⟩ := hs'
    obtain ⟨_, _, hkind, hid, _, _, _⟩ := apply_eq_ok hnext
    exact h.set (hkind ▸ hid ▸ rfl)

/-- The record of a target among those listed. -/
def recordOf (kind : HealthTargetKind) (id : String) (records : List HealthOverlayRecord) :
    Option HealthOverlayRecord :=
  records.find? fun record => record.targetKind = kind ∧ record.targetId = id

/-- **At an instant of the clock, `list` shows what `get` finds**, of every target. -/
def LooksAgree (parse : String → Option Int) (s : HealthStore) : Prop :=
  ∀ nowMs, (timeClip nowMs).isSome → ∃ records,
    healthAnswer parse s (nowMs, .list none) = .ok (.listed records) ∧
    (∀ kind, healthAnswer parse s (nowMs, .list (some kind)) =
      .ok (.listed (records.filter (·.targetKind = kind)))) ∧
    ∀ kind id, healthAnswer parse s (nowMs, .get kind id) = .ok (.found (recordOf kind id records))

/-- What a record resolves to, while the clock can be printed. -/
def resolved (parse : String → Option Int) (nowMs : Int) (stored : StoredHealthOverlay) :
    HealthOverlayRecord :=
  ((resolveHealthOverlayRecord parse stored.record nowMs).toOption).getD stored.record

theorem resolve_eq_resolved (h : (timeClip nowMs).isSome) (stored : StoredHealthOverlay) :
    resolveHealthOverlayRecord parse stored.record nowMs = pure (resolved parse nowMs stored) := by
  rw [resolved, resolveHealthOverlayRecord, toIso, if_pos h]
  split <;> rfl

theorem target_resolved (h : (timeClip nowMs).isSome) (stored : StoredHealthOverlay) :
    (resolved parse nowMs stored).targetKind = stored.record.targetKind ∧
      (resolved parse nowMs stored).targetId = stored.record.targetId := by
  have hr : resolveHealthOverlayRecord parse stored.record nowMs = _ :=
    resolve_eq_resolved h stored
  cases helapsed : windowElapsed parse stored.record nowMs with
  | true => exact (resolve_of_elapsed helapsed hr).2
  | false =>
    rw [resolve_of_not_elapsed helapsed] at hr
    rw [← Except.ok.inj hr]
    exact ⟨rfl, rfl⟩

theorem answer_list (h : (timeClip nowMs).isSome) (filter : Option HealthTargetKind) :
    healthAnswer parse s (nowMs, .list filter) = .ok (.listed ((s.values.filter
      fun stored => filter.all (stored.record.targetKind = ·)).map (resolved parse nowMs))) := by
  have hlist : MemoryHealthOverlayPort.list parse nowMs filter s = .ok ((s.values.filter
      fun stored => filter.all (stored.record.targetKind = ·)).map (resolved parse nowMs)) s := by
    simp only [MemoryHealthOverlayPort.list, resolve_eq_resolved h, List.mapM_pure]
    rfl
  rw [healthAnswer, HealthCall.perform, result]
  simp only [Functor.map, EStateM.map, hlist]

theorem answer_get (h : (timeClip nowMs).isSome) :
    healthAnswer parse s (nowMs, .get kind id) = .ok (.found
      ((s.get? (healthOverlayTargetKey kind id)).map (resolved parse nowMs))) := by
  have hget : result (MemoryHealthOverlayPort.get parse nowMs kind id) s =
      .ok ((s.get? (healthOverlayTargetKey kind id)).map (resolved parse nowMs)) := by
    have hw : Wp (MemoryHealthOverlayPort.get parse nowMs kind id) s (fun found _ =>
        found = (s.get? (healthOverlayTargetKey kind id)).map (resolved parse nowMs))
        fun _ _ => False := by
      rw [MemoryHealthOverlayPort.get, wp_bind, Effect.wp_get]
      cases s.get? (healthOverlayTargetKey kind id) with
      | none => exact (wp_pure _).mpr rfl
      | some stored =>
        simp only [resolve_eq_resolved h, check_pure, wp_bind, wp_ite, wp_modify, wp_pure]
        exact ⟨fun _ => rfl, fun _ => rfl⟩
    obtain ⟨found, s', heq, rfl⟩ := hw.returns
    rw [result, heq]
  rw [result] at hget
  rw [healthAnswer, HealthCall.perform, result]
  simp only [Functor.map, EStateM.map]
  split at hget
  · next heq => rw [heq, Except.ok.inj hget]
  · exact absurd hget (by simp)

theorem looksAgree (hkeyed : TargetKeyed s) : LooksAgree parse s := by
  intro nowMs h
  refine ⟨s.values.map (resolved parse nowMs), ?_, fun kind => ?_, fun kind id => ?_⟩
  · rw [answer_list h]
    simp only [Option.all_none, List.filter_true]
  · rw [answer_list h, List.filter_map]
    simp only [Option.all_some, Function.comp_def, (target_resolved h _).1]
  · have hfind : s.entries.find? (·.1 = healthOverlayTargetKey kind id) =
        s.entries.find? fun e =>
          e.2.record.targetKind = kind ∧ e.2.record.targetId = id := by
      refine List.find?_congr fun e he => decide_eq_decide.mpr ?_
      rw [hkeyed e.1 e.2 (OrderedMap.get?_eq_some.mpr he), healthOverlayTargetKey_inj]
    rw [answer_get h, recordOf, List.find?_map, OrderedMap.values, List.find?_map,
      OrderedMap.get?, hfind]
    simp only [Function.comp_def, (target_resolved h _).1, (target_resolved h _).2]

/-! ## Runs -/

/-- **A block outlasts every call that does not release its target**: in a run, whatever stands
after `before` still stands at the end, to the instant it stands to. -/
def BlocksKept (parse : String → Option Int) (steps : List HealthStep) : Prop :=
  ∀ before after, steps = before ++ after → ∀ kind id t,
    (∀ step ∈ after, step.1 ≤ t ∧ ¬ step.2.Releases kind id) →
    BlockedAt parse (runAll (healthStep parse) before .empty) kind id t →
    BlockedAt parse (runAll (healthStep parse) steps .empty) kind id t

/-- **Looks are unseen**: a run with looks inserted ends in the same state, and shows the same
answers and states at its other calls. -/
def LooksUnseen (parse : String → Option Int) (steps : List HealthStep) : Prop :=
  ∀ fewer, Inserted (fun step : HealthStep => step.2.isLook = true) fewer steps →
    runAll (healthStep parse) fewer .empty = runAll (healthStep parse) steps .empty ∧
    Inserted (fun sight => sight.step.2.isLook = true)
      (sights (healthStep parse) (healthAnswer parse) fewer .empty)
      (sights (healthStep parse) (healthAnswer parse) steps .empty)

theorem blockedAt_run (hparse : ReadsInstants parse) {steps : List HealthStep}
    (hmet : Admits (healthStep parse) (FailureOutlasts parse) steps s)
    (hrel : ∀ step ∈ steps, step.1 ≤ t ∧ ¬ step.2.Releases kind id)
    (h : BlockedAt parse s kind id t) :
    BlockedAt parse (runAll (healthStep parse) steps s) kind id t := by
  induction steps generalizing s with
  | nil => exact h
  | cons step steps ih =>
    obtain ⟨ht, hnot⟩ := hrel step List.mem_cons_self
    exact ih hmet.2 (fun step' h' => hrel step' (List.mem_cons_of_mem step h'))
      (blockedAt_step hparse hmet.1 ht hnot h)

/-- **Blocks hold, and looks are unseen**, in every run whose looks find no window that is over
and whose failures outlast the block they find. -/
theorem blocksHold (hparse : ReadsInstants parse) (steps : List HealthStep)
    (hmet : Admits (healthStep parse) (HealthMet parse) steps .empty) :
    BlocksKept parse steps ∧ LooksUnseen parse steps ∧
      ∀ before after, steps = before ++ after →
        LooksAgree parse (runAll (healthStep parse) before .empty) := by
  have hfailures : Admits (healthStep parse) (FailureOutlasts parse) steps .empty :=
    Admits.beside (fun _ => True) (fun _ _ _ h => ⟨trivial, h.2⟩) trivial hmet
  have hlooks : Admits (healthStep parse)
      (fun s step => step.2.isLook = true → healthStep parse s step = s) steps .empty :=
    Admits.beside (fun _ => True)
      (fun _ _ _ h => ⟨trivial, healthStep_of_look h.1⟩) trivial hmet
  refine ⟨?_, fun fewer h => ⟨h.runAll hlooks, h.sights hlooks⟩, fun before _ _ => ?_⟩
  · rintro before after rfl kind id t hrel h
    rw [runAll_append]
    exact blockedAt_run hparse ((admits_append before after _).mp hfailures).2 hrel h
  · refine looksAgree (runAll_invariant TargetKeyed (fun _ _ h => keyed_healthStep h) before ?_)
    exact fun key stored h => absurd h (Option.some_ne_none _).symm

/-! ## Runs that meet the condition, and runs that do not -/

def depFact (kind : HealthFailureFactKind) : HealthFailureFact where
  targetKind := .deployment
  targetId := "dep"
  kind := kind
  reason := "reported"
  source := "probe"

theorem readsInstants_parseIso : ReadsInstants parseIso := by
  intro ms h
  rw [timeClip] at h
  split at h
  · next hrange => exact parseIso_isoText hrange
  · exact absurd h Bool.false_ne_true

/-- A cooldown looked at while it runs, renewed by a later failure, and looked at again. -/
theorem blocksHold_cooldown : BlocksKept parseIso
    [(0, .reportFact (depFact .rate_limited)), (10, .get .deployment "dep"),
      (20, .reportFact (depFact .hard_failure)), (30, .list none)] :=
  (blocksHold readsInstants_parseIso _ (by
    refine ⟨⟨trivial, ?_⟩, ⟨?_, trivial⟩, ⟨trivial, ?_⟩, ⟨trivial, trivial⟩, trivial⟩
    · intro stored hstored
      exact absurd hstored (Option.some_ne_none _).symm
    · intro stored hstored
      obtain rfl := Option.some.inj hstored
      decide +kernel
    · intro stored hstored _
      obtain rfl := Option.some.inj hstored
      exact ⟨5000, by decide +kernel, by decide⟩)).1

/-- **A failure may free a target**: a server error after a rate limit makes a target in cooldown
available, and a look at a window that is over makes later failures count from zero. -/
theorem not_blocksHold :
    ¬ BlocksKept parseIso [(0, .reportFact (depFact .rate_limited)),
      (1, .reportFact (depFact .server_error))] ∧
    ¬ LooksUnseen parseIso [(0, .reportFact (depFact .rate_limited)),
      (1, .reportFact (depFact .rate_limited)), (6000, .get .deployment "dep"),
      (6001, .reportFact (depFact .server_error))] := by
  constructor
  · intro h
    have hblocked := h [(0, .reportFact (depFact .rate_limited))]
      [(1, .reportFact (depFact .server_error))] rfl .deployment "dep" 1 (by
        intro step hstep
        obtain rfl := List.mem_singleton.mp hstep
        exact ⟨le_refl _, fun hrel => absurd hrel.2.2 (by decide)⟩) (by decide +kernel)
    exact absurd hblocked (by decide +kernel)
  · intro h
    have hsame := (h [(0, .reportFact (depFact .rate_limited)),
      (1, .reportFact (depFact .rate_limited)), (6001, .reportFact (depFact .server_error))]
      (.keep _ (.keep _ (.add rfl (.keep _ .nil))))).1
    exact absurd hsame (by decide +kernel)

end MeiyeAgent
