import MeiyeAgent.GoalProactive.CampaignPaidWork

/-!
# GoalProactive/CampaignWorks — Works are produced in order, under one lease at a time

* `CampaignInvariant` — what the rows, the log and each caller promise.
* `campaignInvariant_step`, `campaignInvariant_run` — the invariant, where a Work is ended by its
  own claimant and a delivery is looked up among the task's own requests.
* `campaignWorksHold` — the laws of every such run.
-/

namespace MeiyeAgent

open Histories Effect PostgresCampaignPaidWorkLifecycleStore

/-! ## Laws -/

section Laws

/-- A request of the task itself, or of an attempt prepared for it. -/
def ofTask (workspaceId taskId : String) (request : TaskRequestRow) : Bool :=
  let runtimeId := harnessRuntimeId workspaceId taskId
  request.workspaceId = some workspaceId ∧
    (request.workflowId = taskId ∨ isPreparedAttemptRunIdForTask request.workflowId taskId ∨
      request.taskId = runtimeId ∨ request.runtimeId = runtimeId)

/-- A request of the task was delivered. -/
def DeliveredOwn (tables : HarnessTables) (workspaceId taskId : String) : Prop :=
  ∃ request ∈ tables.requests,
    tables.isPackageDelivered request = true ∧ ofTask workspaceId taskId request = true

/-- A Work that was claimed has ended, or was claimed again past its lease. -/
def Over (log : List CampaignEntry) (campaignId : String) (workOrdinal : WorkOrdinal)
    (claimant : Nat) (now : Int) : Prop :=
  .ended campaignId workOrdinal claimant ∈ log ∨
    ∃ claimant' now', .claimed campaignId workOrdinal claimant' now' ∈ log ∧
      now + campaignClaimLeaseMs < now'

/-- What a Work is started upon: the plan of Work 1 is approved; Work 2 stands in the thread of
Work 1's result, which was delivered. -/
def Entitled (rows : CampaignRows) (log : List CampaignEntry) (campaignId : String)
    (submission : CampaignPaidWorkSubmission) : WorkOrdinal → Prop
  | .first => ∃ row, rows campaignId = some row ∧
      .confirmed row.record.workspaceId row.record.planApprovalRequestId ∈ log
  | .second => ∃ row first, rows campaignId = some row ∧ row.record.results .first = some first ∧
      submission.agentThreadId = some first.threadId ∧
      ∃ tables, .delivered row.record.workspaceId first.taskId tables ∈ log ∧
        DeliveredOwn tables row.record.workspaceId first.taskId

/-- **A Work is started under its own claim**, no other of which is running. -/
def StartsAlone (before : List CampaignEntry) (entry : CampaignEntry) : Prop :=
  ∀ c o b ref submission, entry = .started c o b ref submission →
    (∃ t, .claimed c o b t ∈ before) ∧
      ∀ a t, .claimed c o a t ∈ before → a = b ∨ Over before c o a t

/-- A Work is claimed once every earlier claim of it is over. -/
def ClaimsAlone (before : List CampaignEntry) (entry : CampaignEntry) : Prop :=
  ∀ c o b t, entry = .claimed c o b t → ∀ a t', .claimed c o a t' ∈ before →
    Over (before ++ [entry]) c o a t'

/-- **Works are produced in order**, one claimant at a time. -/
structure CampaignWorksHold (s : CampaignState) : Prop where
  /-- Work 1 is started once the plan is approved, Work 2 in the thread of Work 1's result, once
  that was delivered -/
  entitled : ∀ c o a ref submission, .started c o a ref submission ∈ s.log →
    Entitled s.rows s.log c submission o
  /-- no Work is started while another claimant's lease has not passed -/
  exclusive : EachFollows StartsAlone s.log
  /-- nor claimed -/
  claimed : EachFollows ClaimsAlone s.log

/-- The claim a caller is at work under. -/
def CampaignPhase.claim : CampaignPhase → Option CampaignClaim
  | .starting claim _ _ | .producing claim | .completing claim _ | .releasing claim => some claim
  | _ => none

/-- **A step keeps results and claims**: a claim goes over only at the hands of its claimant, or
past its lease. -/
structure CampaignStepHolds (s : CampaignState) (i : Nat) (move : CampaignMove) : Prop where
  kept : ∀ c row o result, s.rows c = some row → row.record.results o = some result →
    ∃ row', (s.step (i, move)).rows c = some row' ∧ row'.record.results o = some result
  held : ∀ c row o, s.rows c = some row → row.state o = .claimed →
    (∃ row', (s.step (i, move)).rows c = some row' ∧ row'.state o = .claimed ∧
      row'.claimedAt o = row.claimedAt o ∧
      (s.step (i, move)).claimants c o = s.claimants c o) ∨
    (∃ caller claim, s.callers i = some caller ∧ caller.phase.claim = some claim ∧
      claim.campaignId = c ∧ claim.workOrdinal = o ∧ s.claimants c o = some claim.claimant) ∨
    ∃ fate now, move = .statement fate now ∧ claimable row o now = true

/-- A caller that is at work under a claim holds it, where the Work is claimed. -/
def HoldsClaim (s : CampaignState) (i : Nat) : Prop :=
  ∀ caller claim, s.callers i = some caller → caller.phase.claim = some claim →
    ∀ row, s.rows claim.campaignId = some row → row.state claim.workOrdinal = .claimed →
      s.claimants claim.campaignId claim.workOrdinal = some claim.claimant

/-- **The steps under which the laws hold**: a Work that is claimed is started and ended by its
claimant, and a delivery is looked up where each delivered request the query matches is one of the
task. -/
def EndsOwn (s : CampaignState) : Nat × CampaignMove → Prop
  | (i, .statement _ _) | (i, .begins) => HoldsClaim s i
  | (i, .delivery _ tables) => ∀ caller record first, s.callers i = some caller →
    caller.phase = .delivering record first → ∀ request ∈ tables.requests,
      tables.isPackageDelivered request = true →
        matchesTask record.workspaceId first.taskId request = true →
          ofTask record.workspaceId first.taskId request = true
  | _ => True

end Laws

/-! ## Invariant -/

section Invariant

/-- Rows that keep their campaigns and their results. -/
def RowsKeep (rows rows' : CampaignRows) : Prop :=
  ∀ c row, rows c = some row → ∃ row', rows' c = some row' ∧
    row'.record.workspaceId = row.record.workspaceId ∧
    row'.record.planApprovalRequestId = row.record.planApprovalRequestId ∧
    ∀ o result, row.record.results o = some result → row'.record.results o = some result

/-- A record that was read of its row. -/
def Version (rows : CampaignRows) (record : CampaignPaidWorkLifecycleRecord) : Prop :=
  ∃ row, rows record.campaignId = some row ∧ row.record.workspaceId = record.workspaceId ∧
    row.record.planApprovalRequestId = record.planApprovalRequestId ∧
    ∀ o result, record.results o = some result → row.record.results o = some result

/-- What a Work is claimed upon. -/
def ReadyFor (log : List CampaignEntry) (record : CampaignPaidWorkLifecycleRecord) :
    WorkOrdinal → Prop
  | .first => .confirmed record.workspaceId record.planApprovalRequestId ∈ log
  | .second => ∃ first, record.results .first = some first ∧
      ∃ tables, .delivered record.workspaceId first.taskId tables ∈ log ∧
        DeliveredOwn tables record.workspaceId first.taskId

/-- What a caller may rely on. -/
def CampaignPhase.Sound (rows : CampaignRows) (log : List CampaignEntry) : CampaignPhase → Prop
  | .approving record => Version rows record
  | .claiming record workOrdinal => Version rows record ∧ ReadyFor log record workOrdinal
  | .delivering record first => Version rows record ∧ record.results .first = some first
  | .starting claim _ submission =>
    (∃ t, .claimed claim.campaignId claim.workOrdinal claim.claimant t ∈ log) ∧
      Entitled rows log claim.campaignId submission claim.workOrdinal
  | _ => True

/-- What the log says of the rows. -/
structure CampaignLogged (rows : CampaignRows) (claimants : String → WorkOrdinal → Option Nat)
    (log : List CampaignEntry) : Prop where
  campaign : ∀ c row, rows c = some row → row.record.campaignId = c
  held : ∀ c row o, rows c = some row → row.state o = .claimed → ∃ t, row.claimedAt o = some t ∧
    ∀ a, claimants c o = some a → .claimed c o a t ∈ log
  covered : ∀ c o a t, .claimed c o a t ∈ log → Over log c o a t ∨
    ∃ row t', rows c = some row ∧ row.state o = .claimed ∧ row.claimedAt o = some t' ∧
      (claimants c o = some a ∧ t' = t ∨ t + campaignClaimLeaseMs < t')
  entitled : ∀ c o a ref submission, .started c o a ref submission ∈ log →
    Entitled rows log c submission o
  exclusive : EachFollows StartsAlone log
  claimed : EachFollows ClaimsAlone log

structure CampaignInvariant (s : CampaignState) : Prop where
  logged : CampaignLogged s.rows s.claimants s.log
  sound : ∀ i caller, s.callers i = some caller → caller.phase.Sound s.rows s.log

variable {s : CampaignState} {i : Nat} {caller : CampaignCaller} {rows rows' : CampaignRows}
  {claimants : String → WorkOrdinal → Option Nat} {log log' : List CampaignEntry}
  {record : CampaignPaidWorkLifecycleRecord} {phase : CampaignPhase}

theorem RowsKeep.refl (rows : CampaignRows) : RowsKeep rows rows :=
  fun _ row hrow => ⟨row, hrow, rfl, rfl, fun _ _ h => h⟩

variable {c : String}

/-- A row is another of the same campaign. -/
theorem rowsKeep_update {row row' : CampaignRow} (hrow : rows c = some row)
    (hworkspace : row'.record.workspaceId = row.record.workspaceId)
    (hrequest : row'.record.planApprovalRequestId = row.record.planApprovalRequestId)
    (hresults : ∀ o result, row.record.results o = some result →
      row'.record.results o = some result) :
    RowsKeep rows (Function.update rows c (some row')) := by
  intro d old hold
  by_cases hd : d = c
  · subst hd
    obtain rfl := Option.some.inj (hold.symm.trans hrow)
    exact ⟨row', Function.update_self .., hworkspace, hrequest, hresults⟩
  · exact ⟨old, (Function.update_of_ne hd ..).trans hold, rfl, rfl, fun _ _ h => h⟩

theorem Version.mono (h : Version rows record) (hkeep : RowsKeep rows rows') :
    Version rows' record := by
  obtain ⟨row, hrow, hworkspace, hrequest, hresults⟩ := h
  obtain ⟨row', hrow', hworkspace', hrequest', hresults'⟩ := hkeep _ row hrow
  exact ⟨row', hrow', hworkspace'.trans hworkspace, hrequest'.trans hrequest,
    fun o result hresult => hresults' o result (hresults o result hresult)⟩

theorem ReadyFor.mono {workOrdinal : WorkOrdinal} (h : ReadyFor log record workOrdinal)
    (hlog : log ⊆ log') : ReadyFor log' record workOrdinal := by
  cases workOrdinal with
  | first => exact hlog h
  | second =>
    obtain ⟨first, hfirst, tables, hmem, hown⟩ := h
    exact ⟨first, hfirst, tables, hlog hmem, hown⟩

theorem Entitled.mono {submission : CampaignPaidWorkSubmission} {o : WorkOrdinal}
    (h : Entitled rows log c submission o) (hkeep : RowsKeep rows rows') (hlog : log ⊆ log') :
    Entitled rows' log' c submission o := by
  cases o with
  | first =>
    obtain ⟨row, hrow, hconfirmed⟩ := h
    obtain ⟨row', hrow', hworkspace, hrequest, -⟩ := hkeep c row hrow
    refine ⟨row', hrow', ?_⟩
    rw [hworkspace, hrequest]
    exact hlog hconfirmed
  | second =>
    obtain ⟨row, first, hrow, hfirst, hthread, tables, hdelivered, hown⟩ := h
    obtain ⟨row', hrow', hworkspace, -, hresults⟩ := hkeep c row hrow
    refine ⟨row', first, hrow', hresults _ first hfirst, hthread, tables, ?_⟩
    rw [hworkspace]
    exact ⟨hlog hdelivered, hown⟩

theorem CampaignPhase.Sound.mono (h : phase.Sound rows log) (hkeep : RowsKeep rows rows')
    (hlog : log ⊆ log') : phase.Sound rows' log' := by
  cases phase with
  | approving record => exact Version.mono h hkeep
  | claiming record workOrdinal => exact ⟨h.1.mono hkeep, h.2.mono hlog⟩
  | delivering record first => exact ⟨h.1.mono hkeep, h.2⟩
  | starting claim ref submission =>
    obtain ⟨⟨t, hclaimed⟩, hentitled⟩ := h
    exact ⟨⟨t, hlog hclaimed⟩, hentitled.mono hkeep hlog⟩
  | _ => trivial

theorem Over.mono {o : WorkOrdinal} {a : Nat} {t : Int} (h : Over log c o a t) (hlog : log ⊆ log') :
    Over log' c o a t :=
  h.imp (fun hmem => hlog hmem) fun ⟨a', t', hmem, hlt⟩ => ⟨a', t', hlog hmem, hlt⟩

/-- A caller takes another place. -/
theorem CampaignInvariant.put (h : CampaignInvariant s) (hphase : phase.Sound s.rows s.log) :
    CampaignInvariant (s.put i caller phase) where
  logged := h.logged
  sound j other hother := by
    change Function.update s.callers i (some { caller with phase }) j = some other at hother
    by_cases hj : j = i
    · subst hj
      rw [Function.update_self, Option.some.injEq] at hother
      exact hother ▸ hphase
    · rw [Function.update_of_ne hj] at hother
      exact h.sound j other hother

theorem CampaignInvariant.next (h : CampaignInvariant s) : CampaignInvariant (s.next i caller) := by
  unfold CampaignState.next
  split
  · exact h.put trivial
  · exact h.put trivial

theorem CampaignInvariant.afterFirst (h : CampaignInvariant s) (hversion : Version s.rows record) :
    CampaignInvariant (s.afterFirst i caller record) := by
  unfold CampaignState.afterFirst
  split
  · next first hfirst hsecond => exact h.put ⟨hversion, hfirst⟩
  · exact h.next

theorem CampaignInvariant.proceed (h : CampaignInvariant s) (hversion : Version s.rows record)
    (workOrdinal : WorkOrdinal) : CampaignInvariant (s.proceed i caller record workOrdinal) := by
  cases workOrdinal with
  | first => exact h.afterFirst hversion
  | second => exact h.next

/-- A row that is read is a version of itself. -/
theorem CampaignLogged.version (h : CampaignLogged rows claimants log) {row : CampaignRow}
    (hrow : rows c = some row) : Version rows row.record :=
  ⟨row, h.campaign c row hrow ▸ hrow, rfl, rfl, fun _ _ hresult => hresult⟩

/-- An entry that claims nothing is noted. -/
theorem CampaignInvariant.note (h : CampaignInvariant s) (entry : CampaignEntry)
    (hclaims : ∀ c o a t, entry ≠ .claimed c o a t) (halone : StartsAlone s.log entry)
    (hentitled : ∀ c o a ref submission, entry = .started c o a ref submission →
      Entitled s.rows s.log c submission o) : CampaignInvariant (s.note entry) := by
  have hlog : s.log ⊆ s.log ++ [entry] := List.subset_append_left ..
  refine ⟨{ campaign := h.logged.campaign, held := ?_, covered := ?_, entitled := ?_,
            exclusive := h.logged.exclusive.snoc halone, claimed := ?_ },
    fun j other hother => (h.sound j other hother).mono (RowsKeep.refl _) hlog⟩
  · intro c row o hrow hstate
    obtain ⟨t, ht, hclaimed⟩ := h.logged.held c row o hrow hstate
    exact ⟨t, ht, fun a ha => hlog (hclaimed a ha)⟩
  · intro c o a t hmem
    rcases List.mem_append.mp hmem with hmem | hmem
    · exact (h.logged.covered c o a t hmem).imp_left fun hover => hover.mono hlog
    · exact absurd (List.mem_singleton.mp hmem).symm (hclaims c o a t)
  · intro c o a ref submission hmem
    rcases List.mem_append.mp hmem with hmem | hmem
    · exact (h.logged.entitled c o a ref submission hmem).mono (RowsKeep.refl _) hlog
    · exact (hentitled c o a ref submission (List.mem_singleton.mp hmem).symm).mono
        (RowsKeep.refl _) hlog
  · exact h.logged.claimed.snoc fun c o b t heq => absurd heq (hclaims c o b t)

/-- What is noted neither claims nor starts a Work. -/
theorem CampaignInvariant.noteOther (h : CampaignInvariant s) (entry : CampaignEntry)
    (hclaims : ∀ c o a t, entry ≠ .claimed c o a t)
    (hstarts : ∀ c o a ref submission, entry ≠ .started c o a ref submission) :
    CampaignInvariant (s.note entry) :=
  h.note entry hclaims (fun c o b ref submission heq => absurd heq (hstarts c o b ref submission))
    fun c o a ref submission heq => absurd heq (hstarts c o a ref submission)

/-- Other rows that keep what there is. -/
theorem CampaignInvariant.withRows (h : CampaignInvariant s) {rows : CampaignRows}
    (claimants : String → WorkOrdinal → Option Nat) (hkeep : RowsKeep s.rows rows)
    (hcampaign : ∀ c row, rows c = some row → row.record.campaignId = c)
    (hheld : ∀ c row o, rows c = some row → row.state o = .claimed → ∃ t,
      row.claimedAt o = some t ∧ ∀ a, claimants c o = some a → .claimed c o a t ∈ s.log)
    (hcovered : ∀ c o a t, .claimed c o a t ∈ s.log →
      Over s.log c o a t ∨ ∃ row t', rows c = some row ∧ row.state o = .claimed ∧
        row.claimedAt o = some t' ∧
          (claimants c o = some a ∧ t' = t ∨ t + campaignClaimLeaseMs < t')) :
    CampaignInvariant { s with rows, claimants } :=
  ⟨{ h.logged with
      campaign := hcampaign
      held := hheld
      covered := hcovered
      entitled := fun c o a ref submission hmem =>
        (h.logged.entitled c o a ref submission hmem).mono hkeep (List.Subset.refl _) },
    fun j other hother => (h.sound j other hother).mono hkeep (List.Subset.refl _)⟩

end Invariant

/-! ## Steps -/

section Steps

variable {s : CampaignState} {i : Nat} {caller : CampaignCaller} {claim : CampaignClaim}
  {record : CampaignPaidWorkLifecycleRecord} {c : String} {row row' : CampaignRow}
  {o : WorkOrdinal}

theorem get_eq_some {rows : CampaignRows} {workspaceId campaignId : String} :
    PostgresCampaignPaidWorkLifecycleStore.get rows workspaceId campaignId = some row ↔
      rows campaignId = some row ∧ row.record.workspaceId = workspaceId := by
  simp [PostgresCampaignPaidWorkLifecycleStore.get, Option.filter_eq_some_iff]

theorem withClaimant_cases (claimants : String → WorkOrdinal → Option Nat) (c d : String)
    (o p : WorkOrdinal) (claimant : Option Nat) :
    (d = c ∧ p = o ∧ withClaimant claimants c o claimant d p = claimant) ∨
      ((d ≠ c ∨ p ≠ o) ∧ withClaimant claimants c o claimant d p = claimants d p) := by
  unfold withClaimant
  by_cases hd : d = c
  · subst hd
    rw [Function.update_self]
    by_cases hp : p = o
    · subst hp
      exact .inl ⟨rfl, rfl, Function.update_self ..⟩
    · exact .inr ⟨.inr hp, Function.update_of_ne hp ..⟩
  · exact .inr ⟨.inl hd, by rw [Function.update_of_ne hd]⟩

/-- What one Work of a row is after it changed, and the others. -/
theorem withWork_cases (row : CampaignRow) (o p : WorkOrdinal) (state : CampaignWorkState)
    (claimedAt : Option Int) :
    (p = o ∧ (withWork row o state claimedAt).state p = state ∧
      (withWork row o state claimedAt).claimedAt p = claimedAt) ∨
    (p ≠ o ∧ (withWork row o state claimedAt).state p = row.state p ∧
      (withWork row o state claimedAt).claimedAt p = row.claimedAt p) := by
  by_cases hp : p = o
  · subst hp
    exact .inl ⟨rfl, Function.update_self .., Function.update_self ..⟩
  · exact .inr ⟨hp, Function.update_of_ne hp .., Function.update_of_ne hp ..⟩

/-- A row where one Work is in another state: the others of all rows are as they were. -/
theorem update_cases {rows : CampaignRows} {d : String} {old : CampaignRow}
    (h : Function.update rows c (some row') d = some old) :
    (d = c ∧ old = row') ∨ (d ≠ c ∧ rows d = some old) := by
  by_cases hd : d = c
  · subst hd
    rw [Function.update_self, Option.some.injEq] at h
    exact .inl ⟨rfl, h.symm⟩
  · rw [Function.update_of_ne hd] at h
    exact .inr ⟨hd, h⟩

/-- **A Work is no longer claimed**, ended by its claimant. -/
theorem CampaignInvariant.unclaim (h : CampaignInvariant s) {state : CampaignWorkState}
    (row' : CampaignRow) (hrow : s.rows c = some row) (hstate : state ≠ .claimed) {a : Nat}
    (hown : row.state o = .claimed → s.claimants c o = some a) (hended : .ended c o a ∈ s.log)
    (hcampaign : row'.record.campaignId = row.record.campaignId)
    (hworkspace : row'.record.workspaceId = row.record.workspaceId)
    (hrequest : row'.record.planApprovalRequestId = row.record.planApprovalRequestId)
    (hresults : ∀ p result, row.record.results p = some result →
      row'.record.results p = some result)
    (hstates : row'.state = row.state) (hclaims : row'.claimedAt = row.claimedAt) :
    CampaignInvariant { s with
      rows := Function.update s.rows c (some (withWork row' o state none)) } := by
  have hself : Function.update s.rows c (some (withWork row' o state none)) c =
      some (withWork row' o state none) := Function.update_self ..
  refine h.withRows _ (rowsKeep_update hrow hworkspace hrequest hresults) ?_ ?_ ?_
  · intro d old hold
    rcases update_cases hold with ⟨rfl, rfl⟩ | ⟨-, hold⟩
    · exact hcampaign.trans (h.logged.campaign _ _ hrow)
    · exact h.logged.campaign _ _ hold
  · intro d old p hold hp
    rcases update_cases hold with ⟨rfl, rfl⟩ | ⟨-, hold⟩
    · rcases withWork_cases row' o p state none with ⟨rfl, hp', -⟩ | ⟨-, hp', hat⟩
      · exact absurd (hp'.symm.trans hp) hstate
      · rw [hat, hclaims]
        exact h.logged.held d row p hrow (by rw [← hstates, ← hp', hp])
    · exact h.logged.held d old p hold hp
  · intro d p a' t hmem
    rcases h.logged.covered d p a' t hmem with hover | ⟨old, t', hold, hp, hat, hor⟩
    · exact .inl hover
    · by_cases hd : d = c
      · subst hd
        obtain rfl := Option.some.inj (hold.symm.trans hrow)
        rcases withWork_cases row' o p state none with ⟨rfl, -, -⟩ | ⟨-, hp', hat'⟩
        · refine .inl ?_
          rcases hor with ⟨hclaimant, -⟩ | hlt
          · obtain rfl := Option.some.inj ((hown hp).symm.trans hclaimant)
            exact .inl hended
          · obtain ⟨t'', ht, hclaimed⟩ := h.logged.held d old p hold hp
            obtain rfl := Option.some.inj (ht.symm.trans hat)
            exact .inr ⟨a, t'', hclaimed a (hown hp), hlt⟩
        · exact .inr ⟨_, t', hself, by rw [hp', hstates, hp], by rw [hat', hclaims, hat], hor⟩
      · exact .inr ⟨old, t', (Function.update_of_ne hd ..).trans hold, hp, hat, hor⟩

variable {now : Int}

/-- A claim takes a Work, whoever holds it now. -/
theorem CampaignInvariant.takes (h : CampaignInvariant s) (hrow : s.rows c = some row)
    (hclaimable : claimable row o now = true) : CampaignInvariant { s with
      rows := Function.update s.rows c (some (withWork row o .claimed (some now)))
      claimants := withClaimant s.claimants c o none } := by
  have hself : Function.update s.rows c (some (withWork row o .claimed (some now))) c =
      some (withWork row o .claimed (some now)) := Function.update_self ..
  refine h.withRows _ (rowsKeep_update hrow rfl rfl fun _ _ hresult => hresult) ?_ ?_ ?_
  · intro d old hold
    rcases update_cases hold with ⟨rfl, rfl⟩ | ⟨-, hold⟩
    · exact h.logged.campaign _ row hrow
    · exact h.logged.campaign _ _ hold
  · intro d old p hold hp
    rcases withClaimant_cases s.claimants c d o p none with ⟨rfl, rfl, hnone⟩ | ⟨hne, hsame⟩
    · obtain rfl := Option.some.inj (hself.symm.trans hold)
      refine ⟨now, Function.update_self .., fun a ha => ?_⟩
      exact nomatch hnone.symm.trans ha
    · rw [hsame]
      rcases update_cases hold with ⟨rfl, rfl⟩ | ⟨-, hold⟩
      · rcases withWork_cases row o p .claimed (some now) with ⟨rfl, -, -⟩ | ⟨-, hp', hat⟩
        · exact absurd rfl (hne.resolve_left (not_not.mpr rfl))
        · rw [hat]
          exact h.logged.held d row p hrow (hp'.symm.trans hp)
      · exact h.logged.held d old p hold hp
  · intro d p a t hmem
    rcases h.logged.covered d p a t hmem with hover | ⟨old, t', hold, hp, hat, hor⟩
    · exact .inl hover
    · refine .inr ?_
      rcases withClaimant_cases s.claimants c d o p none with ⟨rfl, rfl, -⟩ | ⟨hne, hsame⟩
      · obtain rfl := Option.some.inj (hold.symm.trans hrow)
        refine ⟨_, now, hself, Function.update_self .., Function.update_self .., .inr ?_⟩
        have hlease : campaignClaimLeaseMs = 60000 := rfl
        have hpassed : t' < now - campaignClaimLeaseMs := by
          simpa [claimable, hp, hat] using hclaimable
        rcases hor with ⟨-, rfl⟩ | hlt <;> omega
      · rw [hsame]
        by_cases hd : d = c
        · subst hd
          obtain rfl := Option.some.inj (hold.symm.trans hrow)
          have hne : p ≠ o := hne.resolve_left (not_not.mpr rfl)
          exact ⟨_, t', hself, (Function.update_of_ne hne ..).trans hp,
            (Function.update_of_ne hne ..).trans hat, hor⟩
        · exact ⟨old, t', (Function.update_of_ne hd ..).trans hold, hp, hat, hor⟩

/-- **A Work is claimed**, where nobody holds it yet. -/
theorem CampaignInvariant.claims (h : CampaignInvariant s) (a : Nat) (hrow : s.rows c = some row)
    (hstate : row.state o = .claimed) (hat : row.claimedAt o = some now)
    (hnone : s.claimants c o = none) :
    CampaignInvariant (({ s with claimants := withClaimant s.claimants c o (some a)
      : CampaignState }).note (.claimed c o a now)) := by
  set entry := CampaignEntry.claimed c o a now
  have hlog : s.log ⊆ s.log ++ [entry] := List.subset_append_left ..
  have hself : entry ∈ s.log ++ [entry] := List.mem_append_right _ List.mem_cons_self
  refine ⟨{ campaign := h.logged.campaign, held := ?_, covered := ?_, entitled := ?_,
            exclusive := h.logged.exclusive.snoc nofun, claimed := ?_ },
    fun j other hother => (h.sound j other hother).mono (RowsKeep.refl _) hlog⟩
  · intro d old p hold hp
    obtain ⟨t, ht, hclaimed⟩ := h.logged.held d old p hold hp
    refine ⟨t, ht, fun a' ha' => ?_⟩
    rcases withClaimant_cases s.claimants c d o p (some a) with ⟨rfl, rfl, hsome⟩ | ⟨-, hsame⟩
    · obtain rfl := Option.some.inj (hold.symm.trans hrow)
      obtain rfl := Option.some.inj (ht.symm.trans hat)
      obtain rfl := Option.some.inj (hsome.symm.trans ha')
      exact hself
    · exact hlog (hclaimed a' (hsame.symm.trans ha'))
  · intro d p a' t hmem
    rcases List.mem_append.mp hmem with hmem | hmem
    · refine (h.logged.covered d p a' t hmem).imp (fun hover => hover.mono hlog) ?_
      rintro ⟨old, t', hold, hp, hat', hor⟩
      refine ⟨old, t', hold, hp, hat', hor.imp_left fun ⟨hclaimant, ht⟩ => ⟨?_, ht⟩⟩
      rcases withClaimant_cases s.claimants c d o p (some a) with ⟨rfl, rfl, -⟩ | ⟨-, hsame⟩
      · cases hnone.symm.trans hclaimant
      · exact hsame.trans hclaimant
    · obtain ⟨rfl, rfl, rfl, rfl⟩ := CampaignEntry.claimed.inj (List.mem_singleton.mp hmem).symm
      refine .inr ⟨row, now, hrow, hstate, hat, .inl ⟨?_, rfl⟩⟩
      rcases withClaimant_cases s.claimants c c o o (some a) with ⟨-, -, hsome⟩ | ⟨hne, -⟩
      · exact hsome
      · exact absurd rfl (hne.resolve_left (not_not.mpr rfl))
  · intro d p a' ref submission hmem
    rcases List.mem_append.mp hmem with hmem | hmem
    · exact (h.logged.entitled d p a' ref submission hmem).mono (RowsKeep.refl _) hlog
    · have hclaim : CampaignEntry.started d p a' ref submission = .claimed c o a now :=
        List.mem_singleton.mp hmem
      cases hclaim
  · refine h.logged.claimed.snoc fun d p b t heq a' t' hmem => ?_
    obtain ⟨rfl, rfl, rfl, rfl⟩ := CampaignEntry.claimed.inj heq
    rcases h.logged.covered _ _ a' t' hmem with hover | ⟨old, t'', hold, -, hat', hor⟩
    · exact hover.mono hlog
    · obtain rfl := Option.some.inj (hold.symm.trans hrow)
      obtain rfl := Option.some.inj (hat'.symm.trans hat)
      rcases hor with ⟨hclaimant, -⟩ | hlt
      · cases hnone.symm.trans hclaimant
      · exact .inr ⟨a, t'', hself, hlt⟩

/-- **A claimant that holds its Work starts it**: every other claim of it is over. -/
theorem CampaignInvariant.begins (h : CampaignInvariant s) {ref : AgentRevisionRef}
    {submission : CampaignPaidWorkSubmission}
    (hsound : CampaignPhase.Sound s.rows s.log (.starting claim ref submission))
    (hown : ∀ row, s.rows claim.campaignId = some row → row.state claim.workOrdinal = .claimed →
      s.claimants claim.campaignId claim.workOrdinal = some claim.claimant) :
    CampaignInvariant (s.note (.started claim.campaignId claim.workOrdinal claim.claimant ref
      submission)) := by
  obtain ⟨hclaimed, hentitled⟩ := hsound
  refine h.note _ nofun (fun c o b ref' submission' heq => ?_)
    fun c o a ref' submission' heq => ?_
  · obtain ⟨rfl, rfl, rfl, -, -⟩ := CampaignEntry.started.inj heq
    refine ⟨hclaimed, fun a t hmem => ?_⟩
    rcases h.logged.covered _ _ a t hmem with hover | ⟨row, t', hrow, hstate, hat, hor⟩
    · exact .inr hover
    have hholds := hown row hrow hstate
    rcases hor with ⟨hclaimant, -⟩ | hlt
    · exact .inl (Option.some.inj (hclaimant.symm.trans hholds))
    · obtain ⟨t'', ht, hlogged⟩ := h.logged.held _ row _ hrow hstate
      obtain rfl := Option.some.inj (ht.symm.trans hat)
      exact .inr (.inr ⟨claim.claimant, t'', hlogged _ hholds, hlt⟩)
  · obtain ⟨rfl, rfl, -, -, rfl⟩ := CampaignEntry.started.inj heq
    exact hentitled

end Steps

/-! ### Calls -/

section Calls

variable {s : CampaignState} {i : Nat} {caller : CampaignCaller} {claim : CampaignClaim}
  {record : CampaignPaidWorkLifecycleRecord} {rows : CampaignRows} {o : WorkOrdinal}

theorem withClaimant_twice (claimants : String → WorkOrdinal → Option Nat) (c : String)
    (o : WorkOrdinal) (a b : Option Nat) :
    withClaimant (withClaimant claimants c o a) c o b = withClaimant claimants c o b := by
  simp only [withClaimant, Function.update_self, Function.update_idem]

theorem claimWork_eq_some {before : CampaignRows} {workspaceId campaignId : String}
    (h : claimWork before workspaceId campaignId o now = some (record, rows)) :
    ∃ row, before campaignId = some row ∧ row.record = record ∧ claimable row o now = true ∧
      rows = Function.update before campaignId (some (withWork row o .claimed (some now))) := by
  obtain ⟨row, hrow, h⟩ := Option.bind_eq_some_iff.mp h
  split at h
  · next hclaimable =>
    obtain ⟨rfl, rfl⟩ := Prod.mk.inj (Option.some.inj h)
    exact ⟨row, (get_eq_some.mp hrow).1, rfl, hclaimable, rfl⟩
  · cases h

/-- A Work that is claimed upon what its row says is entitled to its submission. -/
theorem ReadyFor.entitled {row row' : CampaignRow} {c : String} (h : ReadyFor s.log row.record o)
    (hrow : rows c = some row') (hrecord : row'.record = row.record) :
    Entitled rows s.log c (CampaignState.submissionOf row.record o) o := by
  cases o with
  | first =>
    refine ⟨row', hrow, ?_⟩
    rw [hrecord]
    exact h
  | second =>
    obtain ⟨first, hfirst, tables, hdelivered, hown⟩ := h
    refine ⟨row', first, hrow, ?_, ?_, tables, ?_⟩
    · rw [hrecord, hfirst]
    · simp only [CampaignState.submissionOf, hfirst]
    · rw [hrecord]
      exact ⟨hdelivered, hown⟩

theorem Version.ready {row : CampaignRow} (h : Version s.rows record)
    (hrow : s.rows record.campaignId = some row) (hready : ReadyFor s.log record o) :
    ReadyFor s.log row.record o := by
  obtain ⟨row', hrow', hworkspace, hrequest, hresults⟩ := h
  obtain rfl := Option.some.inj (hrow.symm.trans hrow')
  cases o with
  | first =>
    change CampaignEntry.confirmed _ _ ∈ s.log
    rw [hworkspace, hrequest]
    exact hready
  | second =>
    obtain ⟨first, hfirst, hdelivered⟩ := hready
    refine ⟨first, hresults _ first hfirst, ?_⟩
    rw [hworkspace]
    exact hdelivered

theorem campaignInvariant_start (h : CampaignInvariant s)
    (record : CampaignPaidWorkLifecycleRecord) :
    CampaignInvariant { s with rows := create s.rows record } := by
  unfold create
  split
  · exact h
  · next hnone =>
    have hkeep : ∀ c row, s.rows c = some row →
        Function.update s.rows record.campaignId (some { record }) c = some row := by
      intro c row hrow
      refine (Function.update_of_ne ?_ ..).trans hrow
      rintro rfl
      exact nomatch hnone.symm.trans hrow
    refine h.withRows s.claimants (fun c row hrow =>
      ⟨row, hkeep c row hrow, rfl, rfl, fun _ _ hresult => hresult⟩) ?_ ?_ ?_
    · intro c row hrow
      rcases update_cases hrow with ⟨rfl, rfl⟩ | ⟨-, hrow⟩
      · rfl
      · exact h.logged.campaign c row hrow
    · intro c row p hrow hp
      rcases update_cases hrow with ⟨rfl, rfl⟩ | ⟨-, hrow⟩
      · exact nomatch hp
      · exact h.logged.held c row p hrow hp
    · intro c p a t hmem
      refine (h.logged.covered c p a t hmem).imp_right ?_
      rintro ⟨row, t', hrow, hrest⟩
      exact ⟨row, t', hkeep c row hrow, hrest⟩

theorem campaignInvariant_stepRead (h : CampaignInvariant s) (workspaceId campaignId : String)
    (fate : Fate) : CampaignInvariant (s.stepRead i caller workspaceId campaignId fate) := by
  unfold CampaignState.stepRead
  split
  · next row hget =>
    have hversion := h.logged.version (get_eq_some.mp hget).1
    split
    · exact h.put hversion
    · exact h.afterFirst hversion
  · exact h.put trivial

theorem campaignInvariant_stepClaim (h : CampaignInvariant s) (hversion : Version s.rows record)
    (hready : ReadyFor s.log record o) (fate : Fate) (now : Int) :
    CampaignInvariant (s.stepClaim i caller record o fate now) := by
  unfold CampaignState.stepClaim
  dsimp only
  split
  · exact h.put trivial
  · next claimed rows hclaim =>
    obtain ⟨row, hrow, rfl, hclaimable, rfl⟩ := claimWork_eq_some hclaim
    have hready' := hversion.ready hrow hready
    have hnone : withClaimant s.claimants record.campaignId o none record.campaignId o = none := by
      simp only [withClaimant, Function.update_self]
    have hclaims := (h.takes hrow hclaimable).claims s.log.length (Function.update_self ..)
      (Function.update_self ..) (Function.update_self ..) hnone
    rw [withClaimant_twice] at hclaims
    refine hclaims.put ⟨⟨now, List.mem_append_right _ List.mem_cons_self⟩, ?_⟩
    exact (hready'.entitled
      (show _ = some (withWork row o .claimed (some now)) from Function.update_self ..) rfl).mono
        (RowsKeep.refl _) (List.subset_append_left ..)
  · next claimed rows hclaim =>
    obtain ⟨row, hrow, -, hclaimable, rfl⟩ := claimWork_eq_some hclaim
    exact (h.takes hrow hclaimable).put trivial
  · exact h.put trivial

theorem campaignInvariant_stepReread (h : CampaignInvariant s) (o : WorkOrdinal) (fate : Fate) :
    CampaignInvariant (s.stepReread i caller record o fate) := by
  unfold CampaignState.stepReread
  split
  · next row hget => exact h.proceed (h.logged.version (get_eq_some.mp hget).1) o
  · exact h.put trivial

/-- The claim a caller ends is its own, where it still stands. -/
def EndsClaim (s : CampaignState) (claim : CampaignClaim) : Prop :=
  ∀ row, s.rows claim.campaignId = some row → row.state claim.workOrdinal = .claimed →
    s.claimants claim.campaignId claim.workOrdinal = some claim.claimant

/-- The claim is ended. -/
theorem CampaignInvariant.ends (h : CampaignInvariant s) :
    CampaignInvariant (s.note (.ended claim.campaignId claim.workOrdinal claim.claimant)) :=
  h.noteOther _ nofun nofun

theorem completeWork_eq_some {result : CampaignPaidWorkResult}
    (h : completeWork s.rows claim.workspaceId claim.campaignId claim.workOrdinal result =
      some (record, rows)) :
    ∃ row, s.rows claim.campaignId = some row ∧
      record = { row.record with
        results := Function.update row.record.results claim.workOrdinal
          (some ((row.record.results claim.workOrdinal).getD result)) } ∧
      rows = Function.update s.rows claim.campaignId
        (some (withWork { row with record } claim.workOrdinal .complete none)) := by
  obtain ⟨row, hrow, h⟩ := Option.bind_eq_some_iff.mp h
  obtain ⟨rfl, rfl⟩ := Prod.mk.inj (Option.some.inj h)
  exact ⟨row, (get_eq_some.mp hrow).1, rfl, rfl⟩

/-- A result that is there is not overwritten. -/
theorem results_kept (results : WorkOrdinal → Option CampaignPaidWorkResult)
    (result : CampaignPaidWorkResult) (o p : WorkOrdinal) (kept : CampaignPaidWorkResult)
    (hkept : results p = some kept) :
    Function.update results o (some ((results o).getD result)) p = some kept := by
  by_cases hp : p = o
  · subst hp
    rw [Function.update_self, hkept, Option.getD_some]
  · rw [Function.update_of_ne hp, hkept]

theorem CampaignInvariant.completes (h : CampaignInvariant s) (hown : EndsClaim s claim)
    {result : CampaignPaidWorkResult}
    (hcomplete : completeWork s.rows claim.workspaceId claim.campaignId claim.workOrdinal result =
      some (record, rows)) :
    CampaignInvariant ({ s with rows }.note
      (.ended claim.campaignId claim.workOrdinal claim.claimant)) ∧ Version rows record := by
  obtain ⟨row, hrow, hrecord, rfl⟩ := completeWork_eq_some hcomplete
  have hresults : ∀ p kept, row.record.results p = some kept → record.results p = some kept := by
    intro p kept hkept
    rw [hrecord]
    exact results_kept row.record.results result claim.workOrdinal p kept hkept
  have hcampaign : record.campaignId = row.record.campaignId := by rw [hrecord]
  refine ⟨h.ends.unclaim { row with record } hrow nofun (hown row hrow)
    (List.mem_append_right _ List.mem_cons_self) hcampaign (by rw [hrecord]) (by rw [hrecord])
    hresults rfl rfl, ?_⟩
  refine ⟨withWork { row with record } claim.workOrdinal .complete none, ?_, rfl, rfl,
    fun _ _ hresult => hresult⟩
  rw [hcampaign, h.logged.campaign _ row hrow, Function.update_self]

theorem campaignInvariant_stepComplete (h : CampaignInvariant s) (hown : EndsClaim s claim)
    (result : CampaignPaidWorkResult) (fate : Fate) :
    CampaignInvariant (s.stepComplete i caller claim result fate) := by
  unfold CampaignState.stepComplete
  dsimp only
  split
  · next record rows hcomplete =>
    obtain ⟨hcompleted, hversion⟩ := h.completes hown hcomplete
    exact hcompleted.proceed hversion claim.workOrdinal
  · next record rows hcomplete => exact (h.completes hown hcomplete).1.put trivial
  · exact h.put trivial

theorem CampaignInvariant.releases (h : CampaignInvariant s) (hown : EndsClaim s claim) :
    CampaignInvariant ({ s with
      rows := releaseWork s.rows claim.workspaceId claim.campaignId claim.workOrdinal }.note
        (.ended claim.campaignId claim.workOrdinal claim.claimant)) := by
  unfold releaseWork
  split
  · exact h.ends
  · next row hget =>
    split
    · have hrow := (get_eq_some.mp hget).1
      exact h.ends.unclaim row hrow nofun (hown row hrow)
        (List.mem_append_right _ List.mem_cons_self) rfl rfl rfl (fun _ _ hresult => hresult)
        rfl rfl
    · exact h.ends

theorem campaignInvariant_stepRelease (h : CampaignInvariant s) (hown : EndsClaim s claim)
    (fate : Fate) :
    CampaignInvariant (s.stepRelease i caller claim fate) := by
  unfold CampaignState.stepRelease
  split
  · exact h.put trivial
  · exact (h.releases hown).put trivial

theorem campaignInvariant_stepDeliver (h : CampaignInvariant s) (hversion : Version s.rows record)
    {first : CampaignPaidWorkResult} (hfirst : record.results .first = some first)
    {tables : HarnessTables} (hown : ∀ request ∈ tables.requests,
      tables.isPackageDelivered request = true →
        matchesTask record.workspaceId first.taskId request = true →
          ofTask record.workspaceId first.taskId request = true) (fate : Fate) :
    CampaignInvariant (s.stepDeliver i caller record first fate tables) := by
  unfold CampaignState.stepDeliver
  split
  · split
    · next hdelivered =>
      obtain ⟨request, hmem, hmatches⟩ := List.any_eq_true.mp hdelivered
      obtain ⟨hpackage, hmatches⟩ := Bool.and_eq_true_iff.mp hmatches
      have hnoted := h.noteOther (.delivered record.workspaceId first.taskId tables) nofun nofun
      exact hnoted.put ⟨hversion, first, hfirst, tables, List.mem_append_right _ List.mem_cons_self,
        request, hmem, hpackage, hown request hmem hpackage hmatches⟩
    · exact h.next
  · exact h.put trivial

/-- **The step lemma.** -/
theorem campaignInvariant_step (h : CampaignInvariant s) (move : Nat × CampaignMove)
    (hown : EndsOwn s move) : CampaignInvariant (s.step move) := by
  obtain ⟨i, move⟩ := move
  unfold CampaignState.step
  dsimp only
  split
  · next record => exact campaignInvariant_start h record
  · exact h.put trivial
  · exact h.next
  · exact h
  · exact h.put trivial
  · next caller hcaller hcrash hstart =>
    have hsound := h.sound i caller hcaller
    split
    · exact campaignInvariant_stepRead h _ _ _
    · next record hphase =>
      rw [hphase] at hsound
      have hnoted := h.noteOther (.confirmed record.workspaceId record.planApprovalRequestId) nofun
        nofun
      exact hnoted.put ⟨hsound, List.mem_append_right _ List.mem_cons_self⟩
    · exact h.next
    · exact h.put trivial
    · next record o fate now hphase =>
      rw [hphase] at hsound
      exact campaignInvariant_stepClaim h hsound.1 hsound.2 fate now
    · exact campaignInvariant_stepReread h _ _
    · next claim ref submission hphase =>
      rw [hphase] at hsound
      exact (h.begins hsound (hown caller claim hcaller (by rw [hphase]; rfl))).put trivial
    · exact h.put trivial
    · exact h.put trivial
    · next claim result fate now hphase =>
      exact campaignInvariant_stepComplete h
        (hown caller claim hcaller (by rw [hphase]; rfl)) result fate
    · next claim fate now hphase =>
      exact campaignInvariant_stepRelease h (hown caller claim hcaller (by rw [hphase]; rfl)) fate
    · next record first fate tables hphase =>
      rw [hphase] at hsound
      exact campaignInvariant_stepDeliver h hsound.1 hsound.2
        (hown caller record first hcaller hphase) fate
    · exact h

end Calls

/-! ## What a step keeps -/

section Keeps

variable {s s' : CampaignState} {i : Nat} {caller : CampaignCaller} {claim : CampaignClaim}
  {record : CampaignPaidWorkLifecycleRecord} {rows : CampaignRows} {o : WorkOrdinal}

@[simp] theorem next_rows : (s.next i caller).rows = s.rows := by
  unfold CampaignState.next
  split <;> rfl

@[simp] theorem next_claimants : (s.next i caller).claimants = s.claimants := by
  unfold CampaignState.next
  split <;> rfl

@[simp] theorem afterFirst_rows : (s.afterFirst i caller record).rows = s.rows := by
  unfold CampaignState.afterFirst
  split
  · rfl
  · exact next_rows

@[simp] theorem afterFirst_claimants :
    (s.afterFirst i caller record).claimants = s.claimants := by
  unfold CampaignState.afterFirst
  split
  · rfl
  · exact next_claimants

@[simp] theorem proceed_rows : (s.proceed i caller record o).rows = s.rows := by
  cases o with
  | first => exact afterFirst_rows
  | second => exact next_rows

@[simp] theorem proceed_claimants : (s.proceed i caller record o).claimants = s.claimants := by
  cases o with
  | first => exact afterFirst_claimants
  | second => exact next_claimants

/-- **What a step does to the rows**: it keeps them, and changes at most the claim of one Work. -/
structure Touches (s s' : CampaignState) (c : String) (o : WorkOrdinal) : Prop where
  keeps : RowsKeep s.rows s'.rows
  others : ∀ d row p, (d ≠ c ∨ p ≠ o) → s.rows d = some row → row.state p = .claimed →
    ∃ row', s'.rows d = some row' ∧ row'.state p = .claimed ∧
      row'.claimedAt p = row.claimedAt p ∧ s'.claimants d p = s.claimants d p

/-- Rows and claimants that are as they were. -/
def SameRows (s s' : CampaignState) : Prop := s'.rows = s.rows ∧ s'.claimants = s.claimants

theorem SameRows.keeps (h : SameRows s s') : RowsKeep s.rows s'.rows := h.1 ▸ RowsKeep.refl _

variable {c : String}

theorem SameRows.touches (h : SameRows s s') {o : WorkOrdinal} : Touches s s' c o :=
  ⟨h.keeps, fun d row p _ hrow hp => ⟨row, h.1 ▸ hrow, hp, rfl, by rw [h.2]⟩⟩

theorem touches_of_eq {o : WorkOrdinal} (hrows : s'.rows = s.rows)
    (hclaimants : s'.claimants = s.claimants) : Touches s s' c o :=
  SameRows.touches ⟨hrows, hclaimants⟩

/-- **How a step touches a Work**: not at all, by ending a claim, or by claiming it. -/
inductive Touched (s : CampaignState) (i : Nat) (move : CampaignMove) (s' : CampaignState) : Prop
  | nothing (h : ∀ c o, Touches s s' c o)
  | ends (caller : CampaignCaller) (claim : CampaignClaim) (fate : Fate) (now : Int)
      (hmove : move = .statement fate now) (hcaller : s.callers i = some caller)
      (hclaim : caller.phase.claim = some claim)
      (h : Touches s s' claim.campaignId claim.workOrdinal)
  | claims (c : String) (o : WorkOrdinal) (fate : Fate) (now : Int)
      (hmove : move = .statement fate now) (h : Touches s s' c o)
      (hclaimable : ∀ row, s.rows c = some row → claimable row o now = true)

variable {move : CampaignMove}

theorem SameRows.touched (h : SameRows s s') : Touched s i move s' :=
  .nothing fun _ _ => h.touches

theorem touched_of_eq (hrows : s'.rows = s.rows) (hclaimants : s'.claimants = s.claimants) :
    Touched s i move s' :=
  SameRows.touched ⟨hrows, hclaimants⟩

theorem Touched.keeps (h : Touched s i move s') : RowsKeep s.rows s'.rows := by
  cases h with
  | nothing h => exact (h "" .first).keeps
  | ends caller claim fate now hmove hcaller hclaim h => exact h.keeps
  | claims c o fate now hmove h hclaimable => exact h.keeps

/-- One Work of a row is in another state. -/
theorem touches_update {row : CampaignRow} (row' : CampaignRow) (hrow : s.rows c = some row)
    (hworkspace : row'.record.workspaceId = row.record.workspaceId)
    (hrequest : row'.record.planApprovalRequestId = row.record.planApprovalRequestId)
    (hresults : ∀ p result, row.record.results p = some result →
      row'.record.results p = some result) (hstates : row'.state = row.state)
    (hclaims : row'.claimedAt = row.claimedAt) (state : CampaignWorkState) (claimedAt : Option Int)
    (hrows : s'.rows = Function.update s.rows c (some (withWork row' o state claimedAt)))
    (hclaimants : ∀ d p, (d ≠ c ∨ p ≠ o) → s'.claimants d p = s.claimants d p) :
    Touches s s' c o := by
  refine ⟨hrows ▸ rowsKeep_update hrow hworkspace hrequest hresults, fun d old p hne hold hp => ?_⟩
  rw [hrows, hclaimants d p hne]
  by_cases hd : d = c
  · subst hd
    obtain rfl := Option.some.inj (hold.symm.trans hrow)
    have hne : p ≠ o := hne.resolve_left (not_not.mpr rfl)
    refine ⟨_, Function.update_self .., ?_, ?_, rfl⟩
    · exact (Function.update_of_ne hne ..).trans (by rw [hstates, hp])
    · exact (Function.update_of_ne hne ..).trans (by rw [hclaims])
  · exact ⟨old, (Function.update_of_ne hd ..).trans hold, hp, rfl, rfl⟩

theorem touched_stepClaim (fate : Fate) (now : Int) :
    Touched s i (.statement fate now) (s.stepClaim i caller record o fate now) := by
  have hclaims : ∀ {claimed rows claimant s'},
      claimWork s.rows record.workspaceId record.campaignId o now = some (claimed, rows) →
      s'.rows = rows → s'.claimants = withClaimant s.claimants record.campaignId o claimant →
      Touched s i (.statement fate now) s' := by
    intro claimed rows claimant s' hclaim hrows hclaimants
    obtain ⟨row, hrow, -, hclaimable, rfl⟩ := claimWork_eq_some hclaim
    refine .claims record.campaignId o fate now rfl (touches_update row hrow rfl rfl
      (fun _ _ hresult => hresult) rfl rfl _ _ hrows fun d p hne => ?_) fun old hold => ?_
    · rw [hclaimants]
      rcases withClaimant_cases s.claimants record.campaignId d o p claimant with
        ⟨rfl, rfl, -⟩ | ⟨-, hkept⟩
      · exact absurd rfl (hne.resolve_left (not_not.mpr rfl))
      · exact hkept
    · obtain rfl := Option.some.inj (hold.symm.trans hrow)
      exact hclaimable
  unfold CampaignState.stepClaim
  dsimp only
  split
  · exact touched_of_eq rfl rfl
  · next hclaim => exact hclaims hclaim rfl rfl
  · next hclaim => exact hclaims hclaim rfl rfl
  · exact touched_of_eq rfl rfl

theorem touches_stepComplete (result : CampaignPaidWorkResult) (fate : Fate) :
    Touches s (s.stepComplete i caller claim result fate) claim.campaignId claim.workOrdinal := by
  have hcompletes : ∀ {record rows s'}, completeWork s.rows claim.workspaceId claim.campaignId
      claim.workOrdinal result = some (record, rows) → s'.rows = rows →
      s'.claimants = s.claimants → Touches s s' claim.campaignId claim.workOrdinal := by
    intro record rows s' hcomplete hrows hclaimants
    obtain ⟨row, hrow, hrecord, rfl⟩ := completeWork_eq_some hcomplete
    have hkept : ∀ p kept, row.record.results p = some kept → record.results p = some kept := by
      intro p kept hkept
      rw [hrecord]
      exact results_kept row.record.results result claim.workOrdinal p kept hkept
    have hworkspace : record.workspaceId = row.record.workspaceId := by rw [hrecord]
    have hrequest : record.planApprovalRequestId = row.record.planApprovalRequestId := by
      rw [hrecord]
    exact touches_update { row with record } hrow hworkspace hrequest hkept rfl rfl _ _
      hrows fun d p _ => by rw [hclaimants]
  unfold CampaignState.stepComplete
  dsimp only
  split
  · next hcomplete => exact hcompletes hcomplete proceed_rows proceed_claimants
  · next hcomplete => exact hcompletes hcomplete rfl rfl
  · exact touches_of_eq rfl rfl

theorem touches_stepRelease (fate : Fate) :
    Touches s (s.stepRelease i caller claim fate) claim.campaignId claim.workOrdinal := by
  unfold CampaignState.stepRelease
  split
  · exact touches_of_eq rfl rfl
  · unfold releaseWork
    split
    · exact touches_of_eq rfl rfl
    · next row hget =>
      split
      · exact touches_update _ (get_eq_some.mp hget).1 rfl rfl (fun _ _ hresult => hresult) rfl rfl
          _ _ rfl fun _ _ _ => rfl
      · exact touches_of_eq rfl rfl

theorem sameRows_stepRead (workspaceId campaignId : String) (fate : Fate) :
    SameRows s (s.stepRead i caller workspaceId campaignId fate) := by
  unfold CampaignState.stepRead
  split
  · split
    · exact ⟨rfl, rfl⟩
    · exact ⟨afterFirst_rows, afterFirst_claimants⟩
  · exact ⟨rfl, rfl⟩

theorem sameRows_stepReread (fate : Fate) : SameRows s (s.stepReread i caller record o fate) := by
  unfold CampaignState.stepReread
  split
  · exact ⟨proceed_rows, proceed_claimants⟩
  · exact ⟨rfl, rfl⟩

theorem sameRows_stepDeliver (first : CampaignPaidWorkResult) (fate : Fate)
    (tables : HarnessTables) :
    SameRows s (s.stepDeliver i caller record first fate tables) := by
  unfold CampaignState.stepDeliver
  split
  · split
    · exact ⟨rfl, rfl⟩
    · exact ⟨next_rows, next_claimants⟩
  · exact ⟨rfl, rfl⟩

/-- A campaign that is started is new. -/
theorem touches_start (record : CampaignPaidWorkLifecycleRecord) (c : String) (o : WorkOrdinal) :
    Touches s { s with rows := create s.rows record } c o := by
  unfold create
  split
  · exact touches_of_eq rfl rfl
  · next hnone =>
    have hkeep : ∀ d row, s.rows d = some row →
        Function.update s.rows record.campaignId (some { record }) d = some row := by
      intro d row hrow
      refine (Function.update_of_ne ?_ ..).trans hrow
      rintro rfl
      exact nomatch hnone.symm.trans hrow
    exact ⟨fun d row hrow => ⟨row, hkeep d row hrow, rfl, rfl, fun _ _ hresult => hresult⟩,
      fun d row p _ hrow hp => ⟨row, hkeep d row hrow, hp, rfl, rfl⟩⟩

theorem step_touched (i : Nat) (move : CampaignMove) : Touched s i move (s.step (i, move)) := by
  unfold CampaignState.step
  dsimp only
  split
  · exact .nothing (touches_start _)
  · exact touched_of_eq rfl rfl
  · exact touched_of_eq next_rows next_claimants
  · exact touched_of_eq rfl rfl
  · exact touched_of_eq rfl rfl
  · next caller hcaller hcrash hstart =>
    split
    · exact SameRows.touched (sameRows_stepRead ..)
    · exact touched_of_eq rfl rfl
    · exact touched_of_eq next_rows next_claimants
    · exact touched_of_eq rfl rfl
    · exact touched_stepClaim _ _
    · exact SameRows.touched (sameRows_stepReread ..)
    · exact touched_of_eq rfl rfl
    · exact touched_of_eq rfl rfl
    · exact touched_of_eq rfl rfl
    · next claim result fate now hphase =>
      exact .ends caller claim fate now rfl hcaller (by rw [hphase]; rfl)
        (touches_stepComplete result fate)
    · next claim fate now hphase =>
      exact .ends caller claim fate now rfl hcaller (by rw [hphase]; rfl)
        (touches_stepRelease fate)
    · exact SameRows.touched (sameRows_stepDeliver ..)
    · exact touched_of_eq rfl rfl

theorem campaignStepHolds (i : Nat) (move : CampaignMove) (hown : EndsOwn s (i, move)) :
    CampaignStepHolds s i move where
  kept c row o result hrow hresult := by
    obtain ⟨row', hrow', -, -, hkept⟩ := (step_touched i move).keeps c row hrow
    exact ⟨row', hrow', hkept o result hresult⟩
  held c row o hrow hclaimed := by
    cases step_touched (s := s) i move with
    | nothing h =>
      have hother : o ≠ .first ∨ o ≠ .second := by cases o <;> simp
      rcases hother with hother | hother
      · exact .inl ((h c .first).others c row o (.inr hother) hrow hclaimed)
      · exact .inl ((h c .second).others c row o (.inr hother) hrow hclaimed)
    | ends caller claim fate now hmove hcaller hclaim h =>
      subst hmove
      by_cases hne : c ≠ claim.campaignId ∨ o ≠ claim.workOrdinal
      · exact .inl (h.others c row o hne hrow hclaimed)
      · obtain ⟨hc, ho⟩ := not_or.mp hne
        obtain rfl := not_not.mp hc
        obtain rfl := not_not.mp ho
        exact .inr (.inl ⟨caller, claim, hcaller, hclaim, rfl, rfl,
          hown caller claim hcaller hclaim row hrow hclaimed⟩)
    | claims d p fate now hmove h hclaimable =>
      by_cases hne : c ≠ d ∨ o ≠ p
      · exact .inl (h.others c row o hne hrow hclaimed)
      · obtain ⟨hc, ho⟩ := not_or.mp hne
        obtain rfl := not_not.mp hc
        obtain rfl := not_not.mp ho
        exact .inr (.inr ⟨fate, now, hmove, hclaimable row hrow⟩)

end Keeps

/-! ## Every run -/

section Runs

theorem campaignInvariant_empty : CampaignInvariant {} where
  logged :=
    { campaign := fun _ _ hrow => (nomatch hrow)
      held := fun _ _ _ hrow => (nomatch hrow)
      covered := fun _ _ _ _ hmem => absurd hmem List.not_mem_nil
      entitled := fun _ _ _ _ _ hmem => absurd hmem List.not_mem_nil
      exclusive := EachFollows.nil
      claimed := EachFollows.nil }
  sound := fun _ _ hcaller => (nomatch hcaller)

/-- **The run lemma.** -/
theorem campaignInvariant_run (moves : List (Nat × CampaignMove))
    (hown : Admits CampaignState.step EndsOwn moves {}) :
    CampaignInvariant (runAll CampaignState.step moves {}) :=
  runAll_induct CampaignInvariant (fun _ move h hok => campaignInvariant_step h move hok) moves
    campaignInvariant_empty hown

/-- **Works are produced in order, one claimant at a time**, where each is ended by its claimant and
each delivery is looked up among the task's own requests. -/
theorem campaignWorksHold (moves : List (Nat × CampaignMove))
    (hown : Admits CampaignState.step EndsOwn moves {}) :
    CampaignWorksHold (runAll CampaignState.step moves {}) ∧
      ∀ i move, EndsOwn (runAll CampaignState.step moves {}) (i, move) →
        CampaignStepHolds (runAll CampaignState.step moves {}) i move :=
  have h := (campaignInvariant_run moves hown).logged
  ⟨⟨h.entitled, h.exclusive, h.claimed⟩, fun i move => campaignStepHolds i move⟩

/-- A caller that ends no claim but its own, as a test. -/
def endsOwn (s : CampaignState) (i : Nat) : Bool :=
  match (s.callers i).bind (·.phase.claim) with
  | none => true
  | some claim => (s.rows claim.campaignId).all fun row =>
      row.state claim.workOrdinal ≠ .claimed ∨
        s.claimants claim.campaignId claim.workOrdinal = some claim.claimant

theorem holdsClaim_of_endsOwn {s : CampaignState} {i : Nat} (h : endsOwn s i = true) :
    HoldsClaim s i := by
  intro caller claim hcaller hclaim row hrow hclaimed
  have hbind : (s.callers i).bind (·.phase.claim) = some claim := by
    rw [hcaller, Option.bind_some, hclaim]
  rw [endsOwn, hbind] at h
  simp only [hrow, Option.all_some] at h
  exact (of_decide_eq_true h).resolve_left (not_not.mpr hclaimed)

def weeklyCampaign : CampaignPaidWorkLifecycleRecord where
  campaignId := "campaign"
  campaignPlanRef := { id := "plan", revision := .number 1 }
  planApprovalRequestId := "approval"
  submissions _ := { idempotencyKey := "key", facts := .null }
  workspaceId := "workspace"

/-- A caller claims Work 1 at an instant, and starts it. -/
def startsFirst (i : Nat) (now : Int) : List (Nat × CampaignMove) :=
  [(i, .advance "workspace" "campaign"), (i, .statement .answered now),
    (i, .confirmed (some true)), (i, .statement .answered now), (i, .begins)]

/-- Work 1 is claimed, produced and recorded. -/
def recordedFirst : List (Nat × CampaignMove) :=
  (0, .start weeklyCampaign) :: startsFirst 0 0 ++
    [(0, .produced (some { taskId := "task", threadId := "thread", facts := .null })),
      (0, .statement .answered 1)]

theorem campaignWorksHold_recordedFirst :
    CampaignWorksHold (runAll CampaignState.step recordedFirst {}) ∧
      ∀ i move, EndsOwn (runAll CampaignState.step recordedFirst {}) (i, move) →
        CampaignStepHolds (runAll CampaignState.step recordedFirst {}) i move :=
  campaignWorksHold recordedFirst
    ⟨trivial, trivial, holdsClaim_of_endsOwn rfl, trivial, holdsClaim_of_endsOwn rfl,
      holdsClaim_of_endsOwn rfl, trivial, holdsClaim_of_endsOwn rfl, trivial⟩

/-- A slow claimant, whose Work another has claimed past its lease, fails and releases that claim: a
third starts the Work under the second's lease. -/
def releasedByAnother : List (Nat × CampaignMove) :=
  (0, .start weeklyCampaign) :: startsFirst 0 0 ++ startsFirst 1 60001 ++
    [(0, .produced none), (0, .statement .answered 60002)] ++ startsFirst 2 60003

/-- **A Work is started under another's live lease.** -/
theorem not_campaignWorksHold : ¬ ∀ moves : List (Nat × CampaignMove),
    CampaignWorksHold (runAll CampaignState.step moves {}) := by
  intro h
  let started (claimant : Nat) : CampaignEntry :=
    .started "campaign" .first claimant weeklyCampaign.campaignPlanRef
      (weeklyCampaign.submissions .first)
  let before : List CampaignEntry :=
    [.confirmed "workspace" "approval", .claimed "campaign" .first 1 0, started 1,
      .confirmed "workspace" "approval", .claimed "campaign" .first 4 60001, started 4,
      .ended "campaign" .first 1, .confirmed "workspace" "approval",
      .claimed "campaign" .first 8 60003]
  have hlog : (runAll CampaignState.step releasedByAnother {}).log = before ++ [started 8] := rfl
  obtain ⟨-, halone⟩ := (h releasedByAnother).exclusive before (started 8) [] hlog
    "campaign" .first 8 _ _ rfl
  have hclaims : ∀ a t, .claimed "campaign" .first a t ∈ before → t ≤ 60003 := by
    intro a t hmem
    simp only [before, started, List.mem_cons, List.not_mem_nil, or_false, reduceCtorEq, false_or,
      CampaignEntry.claimed.injEq, true_and] at hmem
    rcases hmem with ⟨-, rfl⟩ | ⟨-, rfl⟩ | ⟨-, rfl⟩ <;> decide
  rcases halone 4 60001 (List.mem_of_getElem? (i := 4) rfl) with hsame | hended |
      ⟨a, t, hmem, hlt⟩
  · exact absurd hsame (by decide)
  · simp [before, started] at hended
  · have ht := hclaims a t hmem
    have hlease : campaignClaimLeaseMs = 60000 := rfl
    omega

/-- `_` is any character: an attempt of another task is taken for one of the task's own. -/
example : isDelivered
    { requests := [{ taskId := "id", workflowId := "taskX1:plan-r1", runtimeId := "id",
                     workspaceId := some "workspace" }]
      auditEvents := [{ workflowId := "id", eventType := "package_delivered" }] }
    "workspace" "task_1" = true := by decide +kernel

end Runs

end MeiyeAgent
