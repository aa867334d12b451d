import MeiyeAgent.AgentDomain.Artifact

/-!
# AgentDomain/Reconciliation — clients that miss updates, and the snapshot that brings them back

A client applies what reaches it and leaves out what is refused.

* `applyArtifactUpdate_ok` — **what an accepted update does**: nothing, or one step past the head.
* `bodyAt_unique` — where a revision is one update, a revision is one body, whatever was missed.
* `reconciles` — **the snapshot of the last revision** brings every client back, but one whose ready
  head it does not name as parent; no finished head is lost on the way.
-/

open Effect

namespace MeiyeAgent

/-! ## One update -/

/-- The revision a client has reached. -/
def headRevision : Option ArtifactProjectionState → Nat
  | some current => current.revision
  | none => 0

/-- The body a delta is applied to. -/
def headBody (artifactType : ArtifactType) : Option ArtifactProjectionState → ArtifactFullBody
  | some current => current.body
  | none => emptyBodyForType artifactType

def archivedHeads : Option ArtifactProjectionState → List ArtifactVersionRecord
  | some current => current.archiveIfTerminal
  | none => []

/-- **The body an update makes** of the body of a revision. -/
def ArtifactUpdateWire.Makes (update : ArtifactUpdateWire) (revision : Nat)
    (before body : ArtifactFullBody) : Prop :=
  match update.content with
  | .snapshot full => body = full
  | .delta baseRevision patch => baseRevision = revision ∧
    applyPatchToBody update.artifactType before patch = some (some body)

/-- An update may go past a head. -/
structure ArtifactUpdateWire.Passes (update : ArtifactUpdateWire)
    (current : ArtifactProjectionState) : Prop where
  sameId : current.artifactId = update.artifactId
  sameType : current.artifactType = update.artifactType
  newer : current.revision < update.revision
  lineage : current.status = .ready → update.parentRevision = some current.revision

/-- **One step past the head.** -/
structure HeadAdvances (head : Option ArtifactProjectionState) (update : ArtifactUpdateWire)
    (next : ArtifactProjectionState) : Prop where
  passes : ∀ current, head = some current → update.Passes current
  makes : update.Makes (headRevision head) (headBody update.artifactType head) next.body
  eq : ∃ summary, next = update.head next.body summary (archivedHeads head)

variable {duplicate : Bool}

theorem patchResult_eq_ok {head : ArtifactFullBody → ArtifactProjectionState}
    {applied : Option (Option ArtifactFullBody)} {next : ArtifactProjectionState}
    (h : applied.map (patchResult head) = some (.ok next duplicate)) :
    ∃ body, applied = some (some body) ∧ next = head body ∧ duplicate = false := by
  obtain ⟨result, rfl, hresult⟩ := Option.map_eq_some_iff.mp h
  cases result with
  | none => exact nomatch hresult
  | some body =>
    obtain ⟨rfl, rfl⟩ := ApplyArtifactUpdateResult.ok.inj hresult
    exact ⟨body, rfl, rfl, rfl⟩

theorem applyCold_ok {update : ArtifactUpdateWire} {next : ArtifactProjectionState}
    (h : applyCold update = some (.ok next duplicate)) :
    duplicate = false ∧ HeadAdvances none update next := by
  have hhead : ∀ c, none = some c → update.Passes c := fun c hc =>
    absurd hc (Option.some_ne_none c).symm
  rw [applyCold] at h
  split at h
  · next baseRevision patch hcontent =>
    split at h
    · exact nomatch h
    · next hbase =>
      obtain ⟨body, hbody, rfl, rfl⟩ := patchResult_eq_ok h
      refine ⟨rfl, ⟨hhead, ?_, update.summary, rfl⟩⟩
      rw [ArtifactUpdateWire.Makes, hcontent]
      exact ⟨not_not.mp hbase, hbody⟩
  · next full hcontent =>
    split at h
    · exact nomatch h
    · obtain ⟨rfl, rfl⟩ := ApplyArtifactUpdateResult.ok.inj (Option.some.inj h)
      refine ⟨rfl, ⟨hhead, ?_, update.summary, rfl⟩⟩
      rw [ArtifactUpdateWire.Makes, hcontent]
      rfl

theorem applyAdvance_ok {current next : ArtifactProjectionState} {update : ArtifactUpdateWire}
    (hpasses : update.Passes current) (h : applyAdvance current update = some (.ok next duplicate)) :
    duplicate = false ∧ HeadAdvances (some current) update next := by
  have hhead : ∀ c, some current = some c → update.Passes c := fun c hc =>
    Option.some.inj hc ▸ hpasses
  rw [applyAdvance] at h
  split at h
  · next baseRevision patch hcontent =>
    split at h
    · exact nomatch h
    · next hbase =>
      obtain ⟨body, hbody, rfl, rfl⟩ := patchResult_eq_ok h
      refine ⟨rfl, ⟨hhead, ?_, update.summary.or current.summary, rfl⟩⟩
      rw [ArtifactUpdateWire.Makes, hcontent]
      exact ⟨not_not.mp hbase, hbody⟩
  · next full hcontent =>
    split at h
    · exact nomatch h
    · obtain ⟨rfl, rfl⟩ := ApplyArtifactUpdateResult.ok.inj (Option.some.inj h)
      refine ⟨rfl, ⟨hhead, ?_, update.summary, rfl⟩⟩
      rw [ArtifactUpdateWire.Makes, hcontent]
      rfl

/-- **What an accepted update does**: a stale one nothing, any other one step past the head. -/
theorem applyArtifactUpdate_ok {head : Option ArtifactProjectionState} {update : ArtifactUpdateWire}
    {next : ArtifactProjectionState}
    (h : applyArtifactUpdate head update = some (.ok next duplicate)) :
    (head = some next ∧ next.artifactId = update.artifactId ∧
      next.artifactType = update.artifactType ∧ update.revision ≤ next.revision) ∨
      HeadAdvances head update next := by
  cases head with
  | none => exact .inr (applyCold_ok h).2
  | some current =>
    simp only [applyArtifactUpdate] at h
    split at h
    · exact nomatch h
    · next hid =>
      split at h
      · exact nomatch h
      · next htype =>
        split at h
        · next hle =>
          obtain ⟨rfl, rfl⟩ := ApplyArtifactUpdateResult.ok.inj (Option.some.inj h)
          exact .inl ⟨rfl, not_not.mp hid, not_not.mp htype, hle⟩
        · next hlt =>
          split at h
          · exact nomatch h
          · next hlineage =>
            refine .inr (applyAdvance_ok ⟨not_not.mp hid, not_not.mp htype, not_le.mp hlt, ?_⟩ h).2
            intro hready
            by_contra hparent
            exact hlineage ⟨hready, hparent⟩

/-! ## Clients -/

/-- What a client has after an update; what is refused is left out. -/
def receive (head : Option ArtifactProjectionState) (update : ArtifactUpdateWire) :
    Option ArtifactProjectionState :=
  match applyArtifactUpdate head update with
  | some (.ok state _) => some state
  | _ => head

/-- The update is applied, or is known already. -/
def Accepts (head : Option ArtifactProjectionState) (update : ArtifactUpdateWire) : Prop :=
  ∃ state duplicate, applyArtifactUpdate head update = some (.ok state duplicate)

instance (head : Option ArtifactProjectionState) (update : ArtifactUpdateWire) :
    Decidable (Accepts head update) :=
  match h : applyArtifactUpdate head update with
  | some (.ok state duplicate) => .isTrue ⟨state, duplicate, h⟩
  | some (.failed _ _) => .isFalse fun ⟨_, _, hok⟩ => nomatch h.symm.trans hok
  | none => .isFalse fun ⟨_, _, hok⟩ => nomatch h.symm.trans hok

/-- A client leaves an update out, or goes one step. -/
theorem receive_cases (head : Option ArtifactProjectionState) (update : ArtifactUpdateWire) :
    receive head update = head ∨
      ∃ next, receive head update = some next ∧ HeadAdvances head update next := by
  rw [receive]
  split
  · next state duplicate hok =>
    rcases applyArtifactUpdate_ok hok with ⟨rfl, -⟩ | hadvances
    · exact .inl rfl
    · exact .inr ⟨state, rfl, hadvances⟩
  · exact .inl rfl

namespace HeadAdvances

variable {head : Option ArtifactProjectionState} {current next : ArtifactProjectionState}
  {update : ArtifactUpdateWire}

theorem revision (h : HeadAdvances head update next) : next.revision = update.revision := by
  obtain ⟨summary, heq⟩ := h.eq
  rw [heq]
  rfl

theorem status (h : HeadAdvances head update next) : next.status = update.status := by
  obtain ⟨summary, heq⟩ := h.eq
  rw [heq]
  rfl

theorem artifactId (h : HeadAdvances head update next) : next.artifactId = update.artifactId := by
  obtain ⟨summary, heq⟩ := h.eq
  rw [heq]
  rfl

theorem artifactType (h : HeadAdvances head update next) :
    next.artifactType = update.artifactType := by
  obtain ⟨summary, heq⟩ := h.eq
  rw [heq]
  rfl

theorem versionHistory (h : HeadAdvances head update next) :
    next.versionHistory = archivedHeads head := by
  obtain ⟨summary, heq⟩ := h.eq
  rw [heq]
  rfl

theorem newer (h : HeadAdvances (some current) update next) : current.revision < next.revision := by
  rw [h.revision]
  exact (h.passes current rfl).newer

end HeadAdvances

/-! ## Finished heads are kept -/

namespace ArtifactProjectionState

variable {c c' : ArtifactProjectionState}

/-- The finished heads kept are older than the head. -/
def HistoryBelow (c : ArtifactProjectionState) : Prop :=
  ∀ entry ∈ c.versionHistory, entry.revision < c.revision

theorem archiveIfTerminal_of_terminal (hbelow : c.HistoryBelow) (h : c.isTerminal = true) :
    c.archiveIfTerminal = c.versionHistory ++ [c.versionRecord] := by
  have hnew : c.versionHistory.any (·.revision = c.revision) = false := by
    rw [List.any_eq_false]
    intro entry hentry
    simpa using (hbelow entry hentry).ne
  rw [archiveIfTerminal, h, hnew]
  rfl

/-- What is archived is what was kept, and the head if it is finished. -/
theorem archiveIfTerminal_split (c : ArtifactProjectionState) :
    ∃ later, c.archiveIfTerminal = c.versionHistory ++ later ∧
      ∀ entry ∈ later, entry.revision = c.revision := by
  rw [archiveIfTerminal]
  split
  · exact ⟨[], (List.append_nil _).symm, fun _ h => absurd h List.not_mem_nil⟩
  · split
    · exact ⟨[], (List.append_nil _).symm, fun _ h => absurd h List.not_mem_nil⟩
    · refine ⟨[c.versionRecord], rfl, fun entry hentry => ?_⟩
      obtain rfl := List.mem_singleton.mp hentry
      rfl

/-- **What has become of a head**: it still is the head, or it stands in the history. -/
def Follows (c c' : ArtifactProjectionState) : Prop :=
  c'.artifactId = c.artifactId ∧ c'.artifactType = c.artifactType ∧
    (c' = c ∨ c.revision < c'.revision ∧ ∃ later, c'.versionHistory = c.archiveIfTerminal ++ later ∧
      ∀ entry ∈ later, c.revision < entry.revision)

theorem Follows.refl (c : ArtifactProjectionState) : c.Follows c := ⟨rfl, rfl, .inl rfl⟩

theorem Follows.revision_le (h : c.Follows c') : c.revision ≤ c'.revision := by
  rcases h.2.2 with rfl | ⟨hlt, -⟩
  · exact le_refl _
  · exact hlt.le

/-- **One update further.** -/
theorem Follows.advances {next : ArtifactProjectionState} {update : ArtifactUpdateWire}
    (h : c.Follows c') (hnext : HeadAdvances (some c') update next) : c.Follows next := by
  have hpasses := hnext.passes c' rfl
  refine ⟨?_, ?_, .inr ⟨h.revision_le.trans_lt hnext.newer, ?_⟩⟩
  · rw [hnext.artifactId, ← hpasses.sameId, h.1]
  · rw [hnext.artifactType, ← hpasses.sameType, h.2.1]
  · have hhistory : next.versionHistory = c'.archiveIfTerminal := hnext.versionHistory
    rcases h.2.2 with rfl | ⟨hlt, later, hlater, hnewer⟩
    · exact ⟨[], by rw [hhistory, List.append_nil], fun _ h => absurd h List.not_mem_nil⟩
    · obtain ⟨more, hmore, hrevision⟩ := c'.archiveIfTerminal_split
      refine ⟨later ++ more, by rw [hhistory, hmore, hlater, List.append_assoc], ?_⟩
      intro entry hentry
      rcases List.mem_append.mp hentry with hentry | hentry
      · exact hnewer entry hentry
      · rwa [hrevision entry hentry]

/-- **A finished head** stands in the history once, as it was. -/
theorem Follows.kept (hbelow : c.HistoryBelow) (hterminal : c.isTerminal = true)
    (h : c.Follows c') : c' = c ∨
      c'.versionHistory.filter (·.revision = c.revision) = [c.versionRecord] := by
  rcases h.2.2 with rfl | ⟨hlt, later, hlater, hnewer⟩
  · exact .inl rfl
  · refine .inr ?_
    have hold : c.versionHistory.filter (·.revision = c.revision) = [] := by
      rw [List.filter_eq_nil_iff]
      intro entry hentry
      simpa using (hbelow entry hentry).ne
    have hnew : later.filter (·.revision = c.revision) = [] := by
      rw [List.filter_eq_nil_iff]
      intro entry hentry
      simpa using (hnewer entry hentry).ne'
    rw [hlater, archiveIfTerminal_of_terminal hbelow hterminal, List.filter_append,
      List.filter_append, hold, hnew]
    simp [versionRecord]

theorem historyBelow_of_advances {head : Option ArtifactProjectionState}
    {update : ArtifactUpdateWire} (hhead : ∀ current, head = some current → current.HistoryBelow)
    (h : HeadAdvances head update c) : c.HistoryBelow := by
  intro entry hentry
  rw [h.versionHistory] at hentry
  cases head with
  | none => exact absurd hentry List.not_mem_nil
  | some current =>
    obtain ⟨later, hsplit, hlater⟩ := current.archiveIfTerminal_split
    rw [archivedHeads, hsplit] at hentry
    rcases List.mem_append.mp hentry with hentry | hentry
    · exact (hhead current rfl entry hentry).trans h.newer
    · rw [hlater entry hentry]
      exact h.newer

end ArtifactProjectionState

open ArtifactProjectionState in
/-- Every head a client reaches is newer than what it keeps. -/
theorem historyBelow_run (updates : List ArtifactUpdateWire) :
    ∀ c, runAll receive updates none = some c → c.HistoryBelow :=
  runAll_invariant
    (fun head : Option ArtifactProjectionState => ∀ c, head = some c → c.HistoryBelow)
    (by
      intro head update hhead
      rcases receive_cases head update with heq | ⟨next, heq, hadvances⟩
      · rwa [heq]
      · rw [heq]
        intro c hc
        obtain rfl := Option.some.inj hc
        exact historyBelow_of_advances hhead hadvances)
    updates (fun _ h => (nomatch h))

/-- **A head stays the head, or is kept.** -/
theorem follows_run (c : ArtifactProjectionState) (updates : List ArtifactUpdateWire) :
    ∃ c', runAll receive updates (some c) = some c' ∧ c.Follows c' :=
  runAll_invariant (fun head => ∃ c', head = some c' ∧ c.Follows c')
    (by
      rintro _ update ⟨c', rfl, hfollows⟩
      rcases receive_cases (some c') update with heq | ⟨next, heq, hadvances⟩
      · exact ⟨c', heq, hfollows⟩
      · exact ⟨next, heq, hfollows.advances hadvances⟩)
    updates ⟨c, rfl, .refl c⟩

/-! ## Where a revision is one update -/

/-- Updates of one revision are one update. -/
def OneUpdateARevision (updates : List ArtifactUpdateWire) : Prop :=
  ∀ update ∈ updates, ∀ other ∈ updates, update.revision = other.revision → update = other

instance (updates : List ArtifactUpdateWire) : Decidable (OneUpdateARevision updates) :=
  inferInstanceAs (Decidable (∀ update ∈ updates, ∀ other ∈ updates,
    update.revision = other.revision → update = other))

/-- **The bodies a client may have at a revision**, whatever it has missed. -/
inductive BodyAt (updates : List ArtifactUpdateWire) : Nat → ArtifactFullBody → Prop
  | first {update body} : update ∈ updates →
      update.Makes 0 (emptyBodyForType update.artifactType) body →
      BodyAt updates update.revision body
  | next {update revision before body} : update ∈ updates → BodyAt updates revision before →
      update.Makes revision before body → BodyAt updates update.revision body

variable {revision : Nat} {body : ArtifactFullBody}

theorem BodyAt.pos {updates : List ArtifactUpdateWire} (h : BodyAt updates revision body) :
    0 < revision := by
  cases h with
  | first => exact ArtifactUpdateWire.revision_pos _
  | next => exact ArtifactUpdateWire.revision_pos _

theorem ArtifactUpdateWire.Makes.unique {update : ArtifactUpdateWire}
    {before body' : ArtifactFullBody} (h : update.Makes revision before body)
    (h' : update.Makes revision before body') : body = body' := by
  cases hcontent : update.content with
  | snapshot full =>
    simp only [Makes, hcontent] at h h'
    rw [h, h']
  | delta baseRevision patch =>
    simp only [Makes, hcontent] at h h'
    exact Option.some.inj (Option.some.inj (h.2.symm.trans h'.2))

/-- A delta knows the revision it is for; a snapshot makes one body of any. -/
theorem ArtifactUpdateWire.Makes.revision_eq {update : ArtifactUpdateWire} {revision' : Nat}
    {before before' body' : ArtifactFullBody} (h : update.Makes revision before body)
    (h' : update.Makes revision' before' body') : body = body' ∨ revision = revision' := by
  cases hcontent : update.content with
  | snapshot full =>
    simp only [Makes, hcontent] at h h'
    exact .inl (h.trans h'.symm)
  | delta baseRevision patch =>
    simp only [Makes, hcontent] at h h'
    exact .inr (h.1.symm.trans h'.1)

/-- **A revision is one body.** -/
theorem bodyAt_unique {updates : List ArtifactUpdateWire} (hone : OneUpdateARevision updates)
    (h : BodyAt updates revision body) :
    ∀ {revision' body'}, BodyAt updates revision' body' → revision = revision' → body = body' := by
  induction h with
  | @first update body hmem hmakes =>
    intro revision' body' h' heq
    cases h' with
    | @first other _ hmem' hmakes' =>
      obtain rfl := hone _ hmem _ hmem' heq
      exact hmakes.unique hmakes'
    | @next other base before _ hmem' hat' hmakes' =>
      obtain rfl := hone _ hmem _ hmem' heq
      rcases hmakes.revision_eq hmakes' with hbody | hbase
      · exact hbody
      · exact absurd hbase hat'.pos.ne
  | @next update base before body hmem hat hmakes ih =>
    intro revision' body' h' heq
    cases h' with
    | @first other _ hmem' hmakes' =>
      obtain rfl := hone _ hmem _ hmem' heq
      rcases hmakes.revision_eq hmakes' with hbody | hbase
      · exact hbody
      · exact absurd hbase hat.pos.ne'
    | @next other base' before' _ hmem' hat' hmakes' =>
      obtain rfl := hone _ hmem _ hmem' heq
      rcases hmakes.revision_eq hmakes' with hbody | rfl
      · exact hbody
      · obtain rfl := ih hat' rfl
        exact hmakes.unique hmakes'

/-- **What a client has** is what one of the updates made. -/
def Tracks (updates : List ArtifactUpdateWire) (c : ArtifactProjectionState) : Prop :=
  BodyAt updates c.revision c.body ∧ ∃ update ∈ updates, c.revision = update.revision ∧
    c.status = update.status ∧ c.artifactId = update.artifactId ∧
    c.artifactType = update.artifactType

theorem tracks_of_advances {updates : List ArtifactUpdateWire}
    {head : Option ArtifactProjectionState} {update : ArtifactUpdateWire}
    {next : ArtifactProjectionState} (hmem : update ∈ updates)
    (hhead : ∀ c, head = some c → Tracks updates c) (h : HeadAdvances head update next) :
    Tracks updates next := by
  refine ⟨?_, update, hmem, h.revision, h.status, h.artifactId, h.artifactType⟩
  rw [h.revision]
  cases head with
  | none => exact .first hmem h.makes
  | some current => exact .next hmem (hhead current rfl).1 h.makes

/-- **Whatever a client has missed**, its head is what one of the updates made. -/
theorem tracks_run {updates : List ArtifactUpdateWire} {received : List ArtifactUpdateWire}
    (hsub : ∀ update ∈ received, update ∈ updates) :
    ∀ c, runAll receive received none = some c → Tracks updates c := by
  have hadmits : Admits receive (fun _ update => update ∈ updates) received none :=
    admits_of_forall fun update hupdate _ => hsub update hupdate
  refine runAll_induct (fun head : Option ArtifactProjectionState =>
    ∀ c, head = some c → Tracks updates c) (fun head update hhead hmem => ?_) received
    (fun _ h => (nomatch h)) hadmits
  rcases receive_cases head update with heq | ⟨next, heq, hadvances⟩
  · rwa [heq]
  · rw [heq]
    intro c hc
    obtain rfl := Option.some.inj hc
    exact tracks_of_advances hmem hhead hadvances

/-- An accepted update leaves a head as new as it is. -/
theorem receive_of_accepts {head : Option ArtifactProjectionState} {update : ArtifactUpdateWire}
    (h : Accepts head update) : ∃ c, receive head update = some c ∧
      update.revision ≤ c.revision ∧ c.artifactId = update.artifactId ∧
      c.artifactType = update.artifactType := by
  obtain ⟨c, duplicate, hok⟩ := h
  refine ⟨c, by rw [receive, hok], ?_⟩
  rcases applyArtifactUpdate_ok hok with ⟨-, hid, htype, hle⟩ | hadvances
  · exact ⟨hle, hid, htype⟩
  · exact ⟨hadvances.revision.ge, hadvances.artifactId, hadvances.artifactType⟩

/-- **The last head of a stream that is accepted whole** is as new as each of its updates. -/
theorem le_of_accepted {updates : List ArtifactUpdateWire} :
    ∀ {head : Option ArtifactProjectionState} {final : ArtifactProjectionState},
      Admits receive Accepts updates head → runAll receive updates head = some final →
      ∀ update ∈ updates, update.revision ≤ final.revision ∧
        final.artifactId = update.artifactId ∧ final.artifactType = update.artifactType := by
  induction updates with
  | nil => intro _ _ _ _ _ h; exact absurd h List.not_mem_nil
  | cons first rest ih =>
    intro head final hadmits hfinal update hmem
    rcases List.mem_cons.mp hmem with rfl | hmem
    · obtain ⟨c, hc, hle, hid, htype⟩ := receive_of_accepts hadmits.1
      rw [runAll_cons, hc] at hfinal
      obtain ⟨final', hrun, hfollows⟩ := follows_run c rest
      obtain rfl : final' = final := Option.some.inj (hrun.symm.trans hfinal)
      exact ⟨hle.trans hfollows.revision_le, hfollows.1.trans hid, hfollows.2.1.trans htype⟩
    · exact ih hadmits.2 hfinal update hmem

/-! ## Recovery -/

/-- A snapshot of a head. -/
structure ArtifactUpdateWire.IsSnapshotOf (snapshot : ArtifactUpdateWire)
    (final : ArtifactProjectionState) : Prop where
  artifactId : snapshot.artifactId = final.artifactId
  artifactType : snapshot.artifactType = final.artifactType
  revision : snapshot.revision = final.revision
  status : snapshot.status = final.status
  content : snapshot.content = .snapshot final.body

/-- The client accepts the snapshot and has the head it is of. -/
def RecoversTo (head : Option ArtifactProjectionState) (snapshot : ArtifactUpdateWire)
    (final : ArtifactProjectionState) : Prop :=
  ∃ state duplicate, applyArtifactUpdate head snapshot = some (.ok state duplicate) ∧
    state.revision = final.revision ∧ state.status = final.status ∧ state.body = final.body

/-- The client stands at a ready head that the update goes past without naming it. -/
def HoldsReady (head : Option ArtifactProjectionState) (update : ArtifactUpdateWire) : Prop :=
  ∃ current, head = some current ∧ current.status = .ready ∧ current.revision < update.revision ∧
    update.parentRevision ≠ some current.revision

variable {updates received : List ArtifactUpdateWire} {final current : ArtifactProjectionState}
  {snapshot : ArtifactUpdateWire}

theorem fullMatchesType_of_isSnapshotOf (h : snapshot.IsSnapshotOf final) :
    fullMatchesType snapshot.artifactType final.body = true := by
  have haccepted := snapshot.accepted
  rwa [h.content] at haccepted

theorem recoversTo_cold (h : snapshot.IsSnapshotOf final) : RecoversTo none snapshot final := by
  refine ⟨snapshot.head final.body snapshot.summary [], false, ?_, h.revision, h.status, rfl⟩
  rw [applyArtifactUpdate, applyCold, h.content]
  simp only [fullMatchesType_of_isSnapshotOf h, Bool.not_true]
  rfl

/-- **A head of the same artifact** lets the snapshot pass, unless it is ready and not named. -/
theorem recoversTo_head (h : snapshot.IsSnapshotOf final)
    (hid : current.artifactId = final.artifactId)
    (htype : current.artifactType = final.artifactType) (hle : current.revision ≤ final.revision)
    (hsame : current.revision = final.revision →
      current.status = final.status ∧ current.body = final.body)
    (hready : ¬ HoldsReady (some current) snapshot) : RecoversTo (some current) snapshot final := by
  rcases hle.lt_or_eq with hlt | heq
  · refine ⟨snapshot.head final.body snapshot.summary current.archiveIfTerminal, false, ?_,
      h.revision, h.status, rfl⟩
    have hlineage : ¬ (current.status = .ready ∧
        snapshot.parentRevision ≠ some current.revision) := fun ⟨hstatus, hparent⟩ =>
      hready ⟨current, rfl, hstatus, h.revision ▸ hlt, hparent⟩
    have hnewer : ¬ snapshot.revision ≤ current.revision := not_le.mpr (h.revision ▸ hlt)
    simp only [applyArtifactUpdate, applyAdvance, hid, htype, h.artifactId, h.artifactType,
      h.content, ne_eq, not_true_eq_false, if_false, if_neg hnewer]
    rw [if_neg hlineage, ← h.artifactType, fullMatchesType_of_isSnapshotOf h]
    rfl
  · obtain ⟨hstatus, hbody⟩ := hsame heq
    refine ⟨current, true, ?_, heq, hstatus, hbody⟩
    simp only [applyArtifactUpdate, hid, htype, h.artifactId, h.artifactType, h.revision, heq,
      ne_eq, not_true_eq_false, if_false, le_refl, if_true]

/-- **A ready head that is not named** refuses the snapshot. -/
theorem refuses_of_holdsReady (h : snapshot.IsSnapshotOf final)
    (hid : current.artifactId = final.artifactId)
    (htype : current.artifactType = final.artifactType)
    (hready : HoldsReady (some current) snapshot) :
    ∃ detail, applyArtifactUpdate (some current) snapshot =
      some (.failed .silent_overwrite detail) := by
  obtain ⟨_, hcurrent, hstatus, hlt, hparent⟩ := hready
  obtain rfl := Option.some.inj hcurrent
  refine ⟨"ready artifact requires parentRevision=current.revision for derived version", ?_⟩
  simp only [applyArtifactUpdate, hid, htype, h.artifactId, h.artifactType, ne_eq,
    not_true_eq_false, if_false, if_neg (not_le.mpr hlt)]
  rw [if_pos ⟨hstatus, hparent⟩]

/-- **What a client that has missed updates shares** with one that has missed none. -/
theorem tracks_final (hadmits : Admits receive Accepts updates none)
    (hfinal : runAll receive updates none = some final) (hone : OneUpdateARevision updates)
    (hcurrent : Tracks updates current) :
    current.artifactId = final.artifactId ∧ current.artifactType = final.artifactType ∧
      current.revision ≤ final.revision ∧ (current.revision = final.revision →
        current.status = final.status ∧ current.body = final.body) := by
  obtain ⟨hbody, update, hmem, hrevision, hstatus, hid, htype⟩ := hcurrent
  obtain ⟨hle, hfid, hftype⟩ := le_of_accepted hadmits hfinal update hmem
  refine ⟨hid.trans hfid.symm, htype.trans hftype.symm, hrevision.trans_le hle, fun heq => ?_⟩
  obtain ⟨hfbody, last, hlast, hlastRevision, hlastStatus, -⟩ :=
    tracks_run (fun _ h => h) final hfinal
  have hsame : update = last := hone _ hmem _ hlast
    (hrevision.symm.trans (heq.trans hlastRevision))
  exact ⟨hstatus.trans (hsame ▸ hlastStatus.symm), bodyAt_unique hone hbody hfbody heq⟩

/-- **A client that has missed any part of a stream** is brought back by a snapshot of its last
revision, unless it stands at a ready head the snapshot does not name; its revision never
decreases, a finished head it has been at is kept once, and a ready one gives way only to an update
that names it. -/
theorem reconciles (updates : List ArtifactUpdateWire) :
    (∀ final received snapshot, Admits receive Accepts updates none →
      runAll receive updates none = some final → OneUpdateARevision updates →
      (∀ update ∈ received, update ∈ updates) → snapshot.IsSnapshotOf final →
      let client := runAll receive received none
      (¬ HoldsReady client snapshot → RecoversTo client snapshot final) ∧
      (HoldsReady client snapshot → ∃ detail,
        applyArtifactUpdate client snapshot = some (.failed .silent_overwrite detail))) ∧
    ∀ before after current, updates = before ++ after →
      runAll receive before none = some current →
      ∃ later, runAll receive updates none = some later ∧ current.revision ≤ later.revision ∧
        (current.isTerminal = true → later = current ∨
          later.versionHistory.filter (·.revision = current.revision) =
            [current.versionRecord]) ∧
        ∀ update, current.status = .ready → receive (some current) update ≠ some current →
          update.parentRevision = some current.revision := by
  refine ⟨fun final received snapshot hadmits hfinal hone hsub hsnapshot => ?_,
    fun before after current hsplit hcurrent => ?_⟩
  · cases hclient : runAll receive received none with
    | none => exact ⟨fun _ => recoversTo_cold hsnapshot, fun ⟨_, h, _⟩ => nomatch h⟩
    | some client =>
      obtain ⟨hid, htype, hle, hsame⟩ :=
        tracks_final hadmits hfinal hone (tracks_run hsub client hclient)
      exact ⟨recoversTo_head hsnapshot hid htype hle hsame,
        refuses_of_holdsReady hsnapshot hid htype⟩
  · obtain ⟨later, hlater, hfollows⟩ := follows_run current after
    refine ⟨later, by rw [hsplit, runAll_append, hcurrent, hlater], hfollows.revision_le,
      hfollows.kept (historyBelow_run before current hcurrent), fun update hready hmoves => ?_⟩
    rcases receive_cases (some current) update with heq | ⟨next, -, hadvances⟩
    · exact absurd heq hmoves
    · exact (hadvances.passes current rfl).lineage hready

/-- A note page of one revision. -/
def noteSnapshot (revision : Nat) (status : ArtifactStatus) (parentRevision : Option Nat)
    (body : String) (revision_pos : 0 < revision) : ArtifactUpdateWire where
  artifactId := "note-1"
  artifactType := .note
  revision
  status
  parentRevision
  content := .snapshot (.note [{ pageIndex := 0, stage := .copy, body := some body }])
  revision_pos
  accepted := rfl

/-- The head after such a snapshot. -/
def noteHead (revision : Nat) (status : ArtifactStatus) (parentRevision : Option Nat)
    (body : String) (versionHistory : List ArtifactVersionRecord) (revision_pos : 0 < revision) :
    ArtifactProjectionState :=
  (noteSnapshot revision status parentRevision body revision_pos).head
    (.note [{ pageIndex := 0, stage := .copy, body := some body }]) none versionHistory

theorem reconciles_note : RecoversTo
    (runAll receive [noteSnapshot 1 .partial_ none "A" (by decide)] none)
    (noteSnapshot 2 .ready none "B" (by decide))
    ((noteSnapshot 2 .ready none "B" (by decide)).head
      (.note [{ pageIndex := 0, stage := .copy, body := some "B" }]) none []) := by
  refine ((reconciles [noteSnapshot 1 .partial_ none "A" (by decide),
    noteSnapshot 2 .ready none "B" (by decide)]).1 _ _ _ ?_ ?_ ?_ ?_
    ⟨rfl, rfl, rfl, rfl, rfl⟩).1 ?_
  · decide +kernel
  · decide +kernel
  · decide
  · decide
  · rintro ⟨current, h, hready, -⟩
    obtain rfl := Option.some.inj h
    exact nomatch hready

/-- Of three ready revisions, each derived from the one before, a client that has only the first
refuses the snapshot of the last; and of two updates of one revision, a client that has only the
second keeps its body. -/
theorem not_reconciles :
    (∃ updates received final snapshot, Admits receive Accepts updates none ∧
      runAll receive updates none = some final ∧ OneUpdateARevision updates ∧
      received.Sublist updates ∧ snapshot ∈ updates ∧ snapshot.IsSnapshotOf final ∧
      ¬ RecoversTo (runAll receive received none) snapshot final) ∧
    ∃ updates received final snapshot, Admits receive Accepts updates none ∧
      runAll receive updates none = some final ∧ (∀ update ∈ updates, update.status ≠ .ready) ∧
      received.Sublist updates ∧ snapshot ∈ updates ∧ snapshot.IsSnapshotOf final ∧
      ¬ RecoversTo (runAll receive received none) snapshot final := by
  refine ⟨⟨[noteSnapshot 1 .ready none "A" (by decide), noteSnapshot 2 .ready (some 1) "B"
      (by decide), noteSnapshot 3 .ready (some 2) "C" (by decide)],
      [noteSnapshot 1 .ready none "A" (by decide)],
      noteHead 3 .ready (some 2) "C" [(noteHead 1 .ready none "A" [] (by decide)).versionRecord,
        (noteHead 2 .ready (some 1) "B" [] (by decide)).versionRecord] (by decide),
      noteSnapshot 3 .ready (some 2) "C" (by decide), ?_, ?_, ?_, ?_, ?_,
      ⟨rfl, rfl, rfl, rfl, rfl⟩, ?_⟩,
    ⟨[noteSnapshot 1 .partial_ none "A" (by decide), noteSnapshot 1 .partial_ none "B"
      (by decide)], [noteSnapshot 1 .partial_ none "B" (by decide)],
      noteHead 1 .partial_ none "A" [] (by decide), noteSnapshot 1 .partial_ none "A" (by decide), ?_, ?_, ?_, ?_, ?_,
      ⟨rfl, rfl, rfl, rfl, rfl⟩, ?_⟩⟩
  · decide +kernel
  · decide +kernel
  · decide +kernel
  · decide +kernel
  · decide +kernel
  · rintro ⟨state, duplicate, h, -⟩
    exact nomatch h
  · decide +kernel
  · decide +kernel
  · decide +kernel
  · decide +kernel
  · decide +kernel
  · rintro ⟨state, duplicate, h, -, -, hbody⟩
    obtain ⟨rfl, -⟩ := ApplyArtifactUpdateResult.ok.inj (Option.some.inj h)
    exact absurd hbody (by decide)

end MeiyeAgent
