import Mathlib.Data.Prod.Lex
import MeiyeAgent.GoalProactive.CampaignWorks

/-!
# GoalProactive/CampaignSweep — the sweep of the open campaigns

`advanceOpen` run again and again while approvals, deliveries and the producer's outcomes stay as
they are.  A visit that has nothing to do leaves a row where it is in the order of its last update,
and one that works moves it to the end.

* `CanProgress`, `idleBefore` — who is to get a turn, and who stands in the way.
* `SweptFrom` — what visits leave of a table.
* `advance_idle`, `advance_ready` — one visit.
-/

namespace MeiyeAgent

open Effect PostgresCampaignPaidWorkLifecycleStore

/-! ## The sweep -/

/-- What the ports answer, fixed: `produceWork` answers none when it throws. -/
structure CampaignPorts where
  isConfirmed : String → String → Bool
  isDelivered : String → String → Bool
  produceWork : CampaignPaidWorkLifecycleRecord → CampaignPaidWorkSubmission → WorkOrdinal →
    Option CampaignPaidWorkResult

/-- The table with its `updated_at` column, and how often the clock was read. -/
structure SweepState where
  campaigns : List String
  rows : CampaignRows
  updatedAt : String → Int
  readings : Nat := 0

abbrev SweepM := EStateM Unit SweepState

section Program

variable {γ : Type} [LinearOrder γ] (collate : String → γ) (ports : CampaignPorts)
  (clock : Nat → Int)

/-- What `ORDER BY updated_at, campaign_id` compares. -/
def SweepState.place (s : SweepState) (campaignId : String) : Int ×ₗ γ :=
  toLex (s.updatedAt campaignId, collate campaignId)

/-- The campaigns by their last update. -/
def SweepState.order (s : SweepState) : List String :=
  s.campaigns.insertionSort fun a b => s.place collate a ≤ s.place collate b

/-- A row written at an instant. -/
def SweepState.write (s : SweepState) (campaignId : String) (rows : CampaignRows) (now : Int) :
    SweepState :=
  { s with rows, updatedAt := Function.update s.updatedAt campaignId now }

/-- A Work released, if it is claimed. -/
def SweepState.release (s : SweepState) (workspaceId campaignId : String)
    (workOrdinal : WorkOrdinal) (now : Int) : SweepState :=
  if (PostgresCampaignPaidWorkLifecycleStore.get s.rows workspaceId campaignId).any
      (·.state workOrdinal = .claimed) then
    s.write campaignId (releaseWork s.rows workspaceId campaignId workOrdinal) now
  else s

/-- `clock_timestamp()`. -/
def readClock : SweepM Int := do
  let s ← get
  set { s with readings := s.readings + 1 }
  pure (clock s.readings)

namespace CampaignPaidWorkLifecycle

/-- The end of a Work that was claimed. -/
def endWork (claimed : CampaignPaidWorkLifecycleRecord) (workOrdinal : WorkOrdinal) :
    Option CampaignPaidWorkResult → SweepM CampaignPaidWorkLifecycleRecord
  | some result => do
    let now ← readClock clock
    let s ← get
    match completeWork s.rows claimed.workspaceId claimed.campaignId workOrdinal result with
    | some (record, rows) => do
      set (s.write claimed.campaignId rows now)
      pure record
    | none => throw ()
  | none => do
    let now ← readClock clock
    modify (·.release claimed.workspaceId claimed.campaignId workOrdinal now)
    throw ()

def produceWork (record : CampaignPaidWorkLifecycleRecord) (workOrdinal : WorkOrdinal) :
    SweepM CampaignPaidWorkLifecycleRecord := do
  let now ← readClock clock
  let s ← get
  match claimWork s.rows record.workspaceId record.campaignId workOrdinal now with
  | none =>
    match PostgresCampaignPaidWorkLifecycleStore.get s.rows record.workspaceId
        record.campaignId with
    | some row => pure row.record
    | none => throw ()
  | some (claimed, rows) => do
    set (s.write record.campaignId rows now)
    endWork clock claimed workOrdinal
      (ports.produceWork claimed (CampaignState.submissionOf claimed workOrdinal) workOrdinal)

/-- `advance` once Work 1 is behind it. -/
def advanceSecond (record : CampaignPaidWorkLifecycleRecord) :
    SweepM CampaignPaidWorkLifecycleRecord :=
  match record.results .first, record.results .second with
  | some first, none =>
    if ports.isDelivered record.workspaceId first.taskId then
      produceWork ports clock record .second
    else pure record
  | _, _ => pure record

def advance (workspaceId campaignId : String) : SweepM CampaignPaidWorkLifecycleRecord := do
  let s ← get
  match PostgresCampaignPaidWorkLifecycleStore.get s.rows workspaceId campaignId with
  | none => throw ()
  | some { record, .. } =>
    if (record.results .first).isNone then
      if ports.isConfirmed workspaceId record.planApprovalRequestId then do
        let record ← produceWork ports clock record .first
        advanceSecond ports clock record
      else pure record
    else advanceSecond ports clock record

def advanceEach : List CampaignPaidWorkLifecycleRecord → SweepM Unit
  | [] => pure ()
  | record :: records => do
    let _ ← advance ports clock record.workspaceId record.campaignId
    advanceEach records

def advanceOpen (limit : Nat) : SweepM Nat := do
  let s ← get
  let records := listOpen s.rows (s.order collate) limit
  advanceEach ports clock records
  pure records.length

/-- **Calls of `advanceOpen`** one after another, what they throw caught by the caller. -/
def sweeps (limit : Nat) : Nat → SweepState → SweepState
  | 0, s => s
  | n + 1, s => sweeps limit n (final (advanceOpen collate ports clock limit) s)

end CampaignPaidWorkLifecycle

end Program

open CampaignPaidWorkLifecycle

/-! ## Turns -/

section Turns

variable {γ : Type} [LinearOrder γ] (collate : String → γ) (ports : CampaignPorts)

/-- The Work a visit may begin. -/
def nextWork (record : CampaignPaidWorkLifecycleRecord) : Option WorkOrdinal :=
  match record.results .first, record.results .second with
  | none, _ =>
    if ports.isConfirmed record.workspaceId record.planApprovalRequestId then some .first else none
  | some first, none =>
    if ports.isDelivered record.workspaceId first.taskId then some .second else none
  | some _, some _ => none

/-- A visit at an instant claims a Work of the row. -/
def CampaignRow.ready (row : CampaignRow) (now : Int) : Bool :=
  (nextWork ports row.record).any (claimable row · now)

def CampaignRow.isOpen (row : CampaignRow) : Bool := row.state .second ≠ .complete

/-- **A campaign that can make progress**: its next Work is unclaimed and its producer succeeds. -/
structure CanProgress (row : CampaignRow) (workOrdinal : WorkOrdinal) : Prop where
  isOpen : row.isOpen = true
  next : nextWork ports row.record = some workOrdinal
  unclaimed : row.state workOrdinal = .pending
  produces : (ports.produceWork row.record (CampaignState.submissionOf row.record workOrdinal)
    workOrdinal).isSome = true

/-- The Work is there. -/
def HasWork (s : SweepState) (campaignId : String) (workOrdinal : WorkOrdinal) : Prop :=
  ∃ row, s.rows campaignId = some row ∧ (row.record.results workOrdinal).isSome = true

/-- The campaigns have ids of their own. -/
structure SweepState.Listed (s : SweepState) : Prop where
  nodup : s.campaigns.Nodup
  listed : ∀ c, c ∈ s.campaigns ↔ (s.rows c).isSome = true
  ids : ∀ c row, s.rows c = some row → row.record.campaignId = c

/-- **A table** whose campaigns were last updated before an instant. -/
structure CampaignTable (s : SweepState) (now : Int) : Prop extends s.Listed where
  past : ∀ c ∈ s.campaigns, s.updatedAt c < now

/-- The open campaigns of a table. -/
def SweepState.openCampaigns (s : SweepState) : List String :=
  s.campaigns.filter fun c => (s.rows c).any (·.isOpen)

/-- The open rows before a campaign that a visit leaves where they are. -/
def idleBefore (s : SweepState) (now : Int) (campaignId : String) : List String :=
  s.openCampaigns.filter fun c =>
    (s.rows c).all (fun row => row.ready ports now = false) ∧
      s.place collate c < s.place collate campaignId

/-- **Every campaign gets its turn**: on every clock from now on, as many calls as there are open
campaigns make the progress that can be made. -/
def SweepsAll (limit : Nat) (s : SweepState) (now : Int) : Prop :=
  ∀ clock : Nat → Int, Monotone clock → now ≤ clock 0 → ∀ c row workOrdinal,
    s.rows c = some row → CanProgress ports row workOrdinal →
      HasWork (sweeps collate ports clock limit s.openCampaigns.length s) c workOrdinal

end Turns

/-! ## What a visit leaves -/

section Visits

variable {ports : CampaignPorts} {clock : Nat → Int} {now : Int} {s s' : SweepState}
  {record claimed : CampaignPaidWorkLifecycleRecord} {row row' : CampaignRow} {c : String}
  {o : WorkOrdinal} {ids ids' : Set String}

/-- A row that keeps its campaign and its results. -/
structure CampaignRow.KeptBy (row row' : CampaignRow) : Prop where
  workspaceId : row'.record.workspaceId = row.record.workspaceId
  campaignId : row'.record.campaignId = row.record.campaignId
  results : ∀ o, (row.record.results o).isSome = true → (row'.record.results o).isSome = true

/-- **What visits to some campaigns leave of a table**: rows that keep their results, each as it was
or visited and updated since an instant. -/
structure SweptFrom (now : Int) (ids : Set String) (s s' : SweepState) : Prop where
  campaigns : s'.campaigns = s.campaigns
  absent : ∀ c, s.rows c = none → s'.rows c = none
  rows : ∀ c row, s.rows c = some row → ∃ row', s'.rows c = some row' ∧ row.KeptBy row' ∧
    (row' = row ∧ s'.updatedAt c = s.updatedAt c ∨ c ∈ ids ∧ now ≤ s'.updatedAt c)

theorem CampaignRow.KeptBy.refl (row : CampaignRow) : row.KeptBy row := ⟨rfl, rfl, fun _ h => h⟩

theorem CampaignRow.KeptBy.trans {row'' : CampaignRow} (h : row.KeptBy row')
    (h' : row'.KeptBy row'') : row.KeptBy row'' :=
  ⟨h'.workspaceId.trans h.workspaceId, h'.campaignId.trans h.campaignId,
    fun o hsome => h'.results o (h.results o hsome)⟩

theorem SweptFrom.refl (now : Int) (ids : Set String) (s : SweepState) : SweptFrom now ids s s :=
  ⟨rfl, fun _ h => h, fun _ row hrow => ⟨row, hrow, .refl row, .inl ⟨rfl, rfl⟩⟩⟩

theorem SweptFrom.trans {s'' : SweepState} (h : SweptFrom now ids s s')
    (h' : SweptFrom now ids s' s'') : SweptFrom now ids s s'' := by
  refine ⟨h'.campaigns.trans h.campaigns, fun c hnone => h'.absent c (h.absent c hnone),
    fun c row hrow => ?_⟩
  obtain ⟨row', hrow', hkept, hplace⟩ := h.rows c row hrow
  obtain ⟨row'', hrow'', hkept', hplace'⟩ := h'.rows c row' hrow'
  refine ⟨row'', hrow'', hkept.trans hkept', ?_⟩
  rcases hplace' with ⟨rfl, hsame⟩ | hlater
  · exact hplace.imp (fun hsame' => ⟨hsame'.1, hsame.trans hsame'.2⟩)
      (And.imp_right hsame.ge.trans')
  · exact .inr hlater

theorem SweptFrom.mono (h : SweptFrom now ids s s') (hids : ids ⊆ ids') : SweptFrom now ids' s s' :=
  ⟨h.campaigns, h.absent, fun c row hrow => (h.rows c row hrow).imp fun _ hrow' =>
    ⟨hrow'.1, hrow'.2.1, hrow'.2.2.imp_right (And.imp_left (@hids c))⟩⟩

/-- An update since an instant is followed by such only. -/
theorem SweptFrom.updated (h : SweptFrom now ids s s') (hrow : s.rows c = some row)
    (hlater : now ≤ s.updatedAt c) : now ≤ s'.updatedAt c := by
  obtain ⟨_, -, -, ⟨-, hsame⟩ | ⟨-, hlater'⟩⟩ := h.rows c row hrow
  · exact hlater.trans hsame.ge
  · exact hlater'

/-- A campaign that was not visited stays. -/
theorem SweptFrom.row_eq (h : SweptFrom now ids s s') (hrow : s.rows c = some row) (hc : c ∉ ids) :
    s'.rows c = some row ∧ s'.updatedAt c = s.updatedAt c := by
  obtain ⟨row', hrow', -, ⟨rfl, hsame⟩ | ⟨hmem, -⟩⟩ := h.rows c row hrow
  · exact ⟨hrow', hsame⟩
  · exact absurd hmem hc

theorem SweptFrom.hasWork (h : SweptFrom now ids s s') (hwork : HasWork s c o) :
    HasWork s' c o := by
  obtain ⟨row, hrow, hsome⟩ := hwork
  obtain ⟨row', hrow', hkept, -⟩ := h.rows c row hrow
  exact ⟨row', hrow', hkept.results o hsome⟩

variable {rows : CampaignRows} {t : Int}

@[simp] theorem write_updatedAt_self : (s.write c rows t).updatedAt c = t := Function.update_self ..

/-- **One row is written** at an instant. -/
theorem sweptFrom_write (hrow : s.rows c = some row) (hkept : row.KeptBy row') (hc : c ∈ ids)
    (ht : now ≤ t) : SweptFrom now ids s (s.write c (Function.update s.rows c (some row')) t) := by
  refine ⟨rfl, fun d hnone => ?_, fun d old hold => ?_⟩
  · have hd : d ≠ c := by
      rintro rfl
      exact nomatch hnone.symm.trans hrow
    exact (Function.update_of_ne hd ..).trans hnone
  · by_cases hd : d = c
    · subst hd
      obtain rfl := Option.some.inj (hold.symm.trans hrow)
      exact ⟨row', Function.update_self .., hkept, .inr ⟨hc, ht.trans write_updatedAt_self.ge⟩⟩
    · exact ⟨old, (Function.update_of_ne hd ..).trans hold, .refl old,
        .inl ⟨rfl, Function.update_of_ne hd ..⟩⟩

theorem sweptFrom_read (n : Nat) : SweptFrom now ids s { s with readings := n } :=
  ⟨rfl, fun _ h => h, fun _ row hrow => ⟨row, hrow, .refl row, .inl ⟨rfl, rfl⟩⟩⟩

theorem keptBy_withWork (state : CampaignWorkState) (claimedAt : Option Int) :
    row.KeptBy (withWork row o state claimedAt) := ⟨rfl, rfl, fun _ h => h⟩

/-- The row of a Work that is complete. -/
def completedRow (row : CampaignRow) (o : WorkOrdinal) (result : CampaignPaidWorkResult) :
    CampaignRow :=
  withWork { row with record := { row.record with
    results := Function.update row.record.results o
      (some ((row.record.results o).getD result)) } } o .complete none

theorem results_completedRow (result : CampaignPaidWorkResult) (p : WorkOrdinal)
    (h : p = o ∨ (row.record.results p).isSome = true) :
    ((completedRow row o result).record.results p).isSome = true := by
  change (Function.update row.record.results o _ p).isSome = true
  by_cases hpo : p = o
  · subst hpo
    rw [Function.update_self]
    rfl
  · rw [Function.update_of_ne hpo]
    exact h.resolve_left hpo

theorem completeWork_of_get {workspaceId : String}
    (h : PostgresCampaignPaidWorkLifecycleStore.get rows workspaceId c = some row)
    (result : CampaignPaidWorkResult) : completeWork rows workspaceId c o result =
      some ((completedRow row o result).record,
        Function.update rows c (some (completedRow row o result))) := by
  rw [completeWork, h]
  rfl

theorem sweptFrom_release {workspaceId : String} (hc : c ∈ ids) (ht : now ≤ t) :
    SweptFrom now ids s (s.release workspaceId c o t) := by
  unfold SweepState.release
  split
  · next hclaimed =>
    obtain ⟨row, hrow, hstate⟩ := (Option.any_eq_true _ _).mp hclaimed
    have hrows : releaseWork s.rows workspaceId c o =
        Function.update s.rows c (some (withWork row o .pending none)) := by
      rw [releaseWork, hrow]
      exact if_pos (of_decide_eq_true hstate)
    rw [hrows]
    exact sweptFrom_write (get_eq_some.mp hrow).1 (keptBy_withWork ..) hc ht
  · exact .refl now ids s

/-- The clock reads no instant before `now`. -/
def ReadsFrom (clock : Nat → Int) (now : Int) : Prop := ∀ i, now ≤ clock i

/-! ### A row that has nothing to do -/

/-- A row read under the campaign it is of. -/
structure ReadAs (s : SweepState) (c : String) (row : CampaignRow) : Prop where
  stored : s.rows c = some row
  campaignId : row.record.campaignId = c

theorem ReadAs.get (h : ReadAs s c row) : PostgresCampaignPaidWorkLifecycleStore.get s.rows
    row.record.workspaceId row.record.campaignId = some row :=
  get_eq_some.mpr ⟨h.campaignId ▸ h.stored, rfl⟩

/-- A Work that cannot be claimed is left as it is. -/
theorem produceWork_idle (h : ReadAs s c row)
    (hidle : claimable row o (clock s.readings) = false) :
    produceWork ports clock row.record o s =
      .ok row.record { s with readings := s.readings + 1 } := by
  have hclaim : claimWork s.rows row.record.workspaceId row.record.campaignId o
      (clock s.readings) = none := by
    rw [claimWork, h.get]
    exact if_neg (Bool.eq_false_iff.mp hidle)
  have hread : (readClock clock : SweepM Int) s =
      .ok (clock s.readings) { s with readings := s.readings + 1 } := rfl
  rw [produceWork, bind_of_ok hread, Effect.get_bind]
  dsimp only
  rw [hclaim, h.get]
  rfl

theorem advanceSecond_of_none (hfirst : record.results .first = none) :
    advanceSecond ports clock record s = .ok record s := by
  rw [advanceSecond, hfirst]
  rfl

theorem advanceSecond_idle (h : ReadAs s c row) (hidle : row.ready ports (clock s.readings) = false)
    {first : CampaignPaidWorkResult} (hfirst : row.record.results .first = some first) :
    ∃ n, advanceSecond ports clock row.record s = .ok row.record { s with readings := n } := by
  rw [CampaignRow.ready, nextWork, hfirst] at hidle
  rw [advanceSecond, hfirst]
  cases hsecond : row.record.results .second with
  | some second => exact ⟨s.readings, rfl⟩
  | none =>
    rw [hsecond] at hidle
    dsimp only at hidle ⊢
    split at hidle
    · next hdelivered =>
      rw [if_pos hdelivered]
      exact ⟨_, produceWork_idle h hidle⟩
    · next hdelivered =>
      rw [if_neg hdelivered]
      exact ⟨s.readings, rfl⟩

/-- **A visit with nothing to do** leaves the table. -/
theorem advance_idle (h : ReadAs s c row) (hidle : row.ready ports (clock s.readings) = false) :
    ∃ n, advance ports clock row.record.workspaceId c s =
      .ok row.record { s with readings := n } := by
  have hget := h.get
  rw [h.campaignId] at hget
  rw [advance, Effect.get_bind, hget]
  dsimp only
  cases hfirst : row.record.results .first with
  | some first => exact advanceSecond_idle h hidle hfirst
  | none =>
    rw [CampaignRow.ready, nextWork, hfirst] at hidle
    dsimp only at hidle
    split at hidle
    · next hconfirmed =>
      rw [Option.isNone_none, if_pos rfl, if_pos hconfirmed, bind_of_ok (produceWork_idle h hidle)]
      exact ⟨_, advanceSecond_of_none hfirst⟩
    · next hconfirmed =>
      rw [Option.isNone_none, if_pos rfl, if_neg hconfirmed]
      exact ⟨s.readings, rfl⟩

/-! ### A row that is worked on -/

theorem ReadAs.read (h : ReadAs s c row) (n : Nat) : ReadAs { s with readings := n } c row :=
  ⟨h.stored, h.campaignId⟩

/-- A row written is there under its campaign. -/
theorem readAs_write (hid : row.record.campaignId = c) (t : Int) :
    ReadAs (s.write c (Function.update rows c (some row)) t) c row :=
  ⟨Function.update_self .., hid⟩

/-- A Work that was produced leaves its campaign so. -/
structure WorkEnds (now : Int) (c : String) (o : WorkOrdinal) (s : SweepState)
    (record : CampaignPaidWorkLifecycleRecord) (s' : SweepState) : Prop where
  swept : SweptFrom now {c} s s'
  read : ∃ row', row'.record = record ∧ ReadAs s' c row'
  work : HasWork s' c o

theorem endWork_spec (hclock : ReadsFrom clock now) (h : ReadAs s c row)
    (result : Option CampaignPaidWorkResult) :
    Wp (endWork clock row.record o result) s (WorkEnds now c o s)
      fun _ s' => SweptFrom now {c} s s' ∧ result = none := by
  have hget := h.get
  have hread := h.read (s.readings + 1)
  obtain ⟨hstored, rfl⟩ := h
  cases result with
  | none =>
    simp only [endWork, readClock, wp_bind, wp_get, wp_set, wp_pure, wp_modify, wp_throw]
    exact ⟨(sweptFrom_read _).trans (sweptFrom_release (Set.mem_singleton _) (hclock _)), trivial⟩
  | some result =>
    simp only [endWork, readClock, wp_bind, wp_get, wp_set, wp_pure, completeWork_of_get hget]
    have hkept : row.KeptBy (completedRow row o result) :=
      ⟨rfl, rfl, fun p hp => results_completedRow result p (.inr hp)⟩
    exact ⟨(sweptFrom_read _).trans (sweptFrom_write hread.stored hkept (Set.mem_singleton _)
        (hclock _)),
      ⟨_, rfl, readAs_write hkept.campaignId _⟩,
      ⟨_, Function.update_self .., results_completedRow result o (.inl rfl)⟩⟩

/-- **A Work that is claimed** moves its row to the end, and is there if its producer succeeds. -/
theorem produceWork_ready (hclock : ReadsFrom clock now) (h : ReadAs s c row)
    (hready : claimable row o (clock s.readings) = true) :
    Wp (produceWork ports clock row.record o) s
      (fun record s' => now ≤ s'.updatedAt c ∧ WorkEnds now c o s record s')
      fun _ s' => now ≤ s'.updatedAt c ∧ SweptFrom now {c} s s' ∧
        ports.produceWork row.record (CampaignState.submissionOf row.record o) o = none := by
  have hget := h.get
  have hread := h.read (s.readings + 1)
  obtain ⟨hstored, rfl⟩ := h
  let claimedRow := withWork row o .claimed (some (clock s.readings))
  have hkept : row.KeptBy claimedRow := keptBy_withWork ..
  have hclaim : claimWork s.rows row.record.workspaceId row.record.campaignId o
      (clock s.readings) = some (row.record, Function.update s.rows row.record.campaignId
        (some claimedRow)) := by
    rw [claimWork, hget]
    exact if_pos hready
  simp only [produceWork, readClock, wp_bind, wp_get, wp_set, wp_pure, hclaim]
  generalize hs₁ : SweepState.write _ _ _ _ = s₁
  have hswept : SweptFrom now {row.record.campaignId} s s₁ := by
    rw [← hs₁]
    exact (sweptFrom_read _).trans
      (sweptFrom_write hread.stored hkept (Set.mem_singleton _) (hclock _))
  have hclaimed : ReadAs s₁ row.record.campaignId claimedRow := by
    rw [← hs₁]
    exact readAs_write hkept.campaignId _
  have hlater : now ≤ s₁.updatedAt row.record.campaignId := by
    rw [← hs₁, write_updatedAt_self]
    exact hclock _
  exact (endWork_spec hclock hclaimed _).mono
    (fun record s' h =>
      ⟨h.swept.updated hclaimed.stored hlater, hswept.trans h.swept, h.read, h.work⟩)
    fun _ s' h => ⟨h.1.updated hclaimed.stored hlater, hswept.trans h.1, h.2⟩

/-- A visit to a campaign touches no other. -/
theorem produceWork_swept (hclock : ReadsFrom clock now) (h : ReadAs s c row) :
    Wp (produceWork ports clock row.record o) s (fun _ s' => SweptFrom now {c} s s')
      fun _ s' => SweptFrom now {c} s s' := by
  cases hready : claimable row o (clock s.readings) with
  | false =>
    unfold Wp
    rw [produceWork_idle h hready]
    exact sweptFrom_read _
  | true =>
    exact (produceWork_ready hclock h hready).mono (fun _ _ hs => hs.2.swept) fun _ _ hs => hs.2.1

theorem advanceSecond_swept (hclock : ReadsFrom clock now) (h : ReadAs s c row) :
    Wp (advanceSecond ports clock row.record) s (fun _ s' => SweptFrom now {c} s s')
      fun _ s' => SweptFrom now {c} s s' := by
  unfold advanceSecond
  split
  · split
    · exact produceWork_swept hclock h
    · exact (wp_pure _).mpr (.refl ..)
  · exact (wp_pure _).mpr (.refl ..)

/-- **A visit that works** moves its row to the end, and makes what progress there is to make. -/
theorem advance_ready (hclock : ReadsFrom clock now) (h : ReadAs s c row)
    (hready : row.ready ports (clock s.readings) = true) :
    Wp (advance ports clock row.record.workspaceId c) s
      (fun _ s' => SweptFrom now {c} s s' ∧ now ≤ s'.updatedAt c ∧
        ∀ o, CanProgress ports row o → HasWork s' c o)
      fun _ s' => SweptFrom now {c} s s' ∧ now ≤ s'.updatedAt c ∧
        ∀ o, CanProgress ports row o → HasWork s' c o := by
  have hget := h.get
  rw [h.campaignId] at hget
  obtain ⟨o, hnext, hclaimable⟩ := (Option.any_eq_true _ _).mp hready
  have honly : ∀ {p}, CanProgress ports row p → p = o := fun hp =>
    Option.some.inj (hp.next.symm.trans hnext)
  -- the Work to begin is produced, or its producer throws
  have hproduce : Wp (produceWork ports clock row.record o) s
      (fun record s' => now ≤ s'.updatedAt c ∧ WorkEnds now c o s record s')
      fun _ s' => SweptFrom now {c} s s' ∧ now ≤ s'.updatedAt c ∧
        ∀ p, CanProgress ports row p → HasWork s' c p := by
    refine (produceWork_ready hclock h hclaimable).mono (fun _ _ hs => hs)
      fun _ s' hs => ⟨hs.2.1, hs.1, fun p hp => ?_⟩
    obtain rfl := honly hp
    have hsome := hp.produces
    rw [hs.2.2] at hsome
    cases hsome
  simp only [advance, wp_bind, wp_get, hget]
  cases hfirst : row.record.results .first with
  | none =>
    rw [nextWork, hfirst] at hnext
    dsimp only at hnext
    split at hnext
    · next hconfirmed =>
      obtain rfl := Option.some.inj hnext
      simp only [Option.isNone_none, if_true, hconfirmed, wp_bind]
      refine hproduce.mono (fun record s₁ hs => ?_) fun _ _ hs => hs
      obtain ⟨hlater, hends₁⟩ := hs
      obtain ⟨row₁, rfl, hread₁⟩ := hends₁.read
      have hends : ∀ s', SweptFrom now {c} s₁ s' → SweptFrom now {c} s s' ∧
          now ≤ s'.updatedAt c ∧ ∀ p, CanProgress ports row p → HasWork s' c p := by
        intro s' hswept
        refine ⟨hends₁.swept.trans hswept, hswept.updated hread₁.stored hlater, fun p hp => ?_⟩
        rw [honly hp]
        exact hswept.hasWork hends₁.work
      exact (advanceSecond_swept hclock hread₁).mono (fun _ s' => hends s') fun _ s' => hends s'
    · cases hnext
  | some first =>
    rw [nextWork, hfirst] at hnext
    simp only [Option.isNone_some, Bool.false_eq_true, if_false, advanceSecond, hfirst]
    cases hsecond : row.record.results .second with
    | some second =>
      rw [hsecond] at hnext
      cases hnext
    | none =>
      rw [hsecond] at hnext
      dsimp only at hnext ⊢
      split at hnext
      · next hdelivered =>
        obtain rfl := Option.some.inj hnext
        rw [if_pos hdelivered]
        refine hproduce.mono (fun _ s' hs => ⟨hs.2.swept, hs.1, fun p hp => ?_⟩)
          fun _ _ hs => hs
        rw [honly hp]
        exact hs.2.work
      · cases hnext

end Visits

end MeiyeAgent
