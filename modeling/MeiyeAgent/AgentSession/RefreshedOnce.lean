import MeiyeAgent.AgentSession.LiveRefresh

/-!
# AgentSession/RefreshedOnce — a stored revision is refreshed once

What a call knows between two awaits is kept by the steps of all others (`RefreshPhase.Sound`): an
append succeeds only behind the source, and then the successor is the latest revision for good.

* `liveRevision_sound` — a parsed successor changes only the live bindings of its source.
* `liveRefreshed_run` — one successor, returned to the calls that asked for it.
-/

namespace MeiyeAgent

/-! ## The successor of a parsed source -/

section Successor

variable {setup : LiveRefreshSetup} {source : PlanRevision} {revision : PlanRevision}
  {input : RefreshPlanLiveBindingsInput}

/-- Other rights leave the other bindings as they are parsed. -/
theorem PlanBoundRevisions.parse_rights {bound parsed : PlanBoundRevisions} {rights : List String}
    (hbound : bound.parse = some bound)
    (h : { bound with rightsRevisionIds := rights }.parse = some parsed) :
    parsed = { bound with rightsRevisionIds := parsed.rightsRevisionIds } ∧
      parseRefs 50 rights = some parsed.rightsRevisionIds := by
  rw [parse] at hbound h
  split at hbound
  · next hrevision =>
    rw [if_pos hrevision] at h
    simp only [Option.bind_eq_bind, Option.bind_eq_some_iff, Option.pure_def,
      Option.some.injEq] at hbound h
    obtain ⟨bundle, hbundle, context, hcontext, recipes, hrecipes, catalog, hcatalog, models,
      hmodels, sources, hsources, own, hown, release, hrelease, heq⟩ := hbound
    obtain ⟨bundle', hbundle', context', hcontext', recipes', hrecipes', catalog', hcatalog',
      models', hmodels', sources', hsources', own', hown', release', hrelease', rfl⟩ := h
    obtain rfl := Option.some.inj (hbundle'.symm.trans hbundle)
    obtain rfl := Option.some.inj (hcontext'.symm.trans hcontext)
    obtain rfl := Option.some.inj (hrecipes'.symm.trans hrecipes)
    obtain rfl := Option.some.inj (hcatalog'.symm.trans hcatalog)
    obtain rfl := Option.some.inj (hmodels'.symm.trans hmodels)
    obtain rfl := Option.some.inj (hsources'.symm.trans hsources)
    obtain rfl := Option.some.inj (hrelease'.symm.trans hrelease)
    rw [← heq]
    exact ⟨rfl, hown'⟩
  · cases hbound

/-- **Of a revision with the ids of a parsed one**, a parse changes the quote, the bound revisions
and the hash. -/
theorem PlanRevision.parse_of_ids {isDatetime : String → Bool} {parsed : PlanRevision}
    (hself : source.parse isDatetime = some source) (hplan : revision.planId = source.planId)
    (hthread : revision.threadId = source.threadId) (hgoals : revision.goalIds = source.goalIds)
    (hrefs : revision.authorityRefs = source.authorityRefs)
    (h : revision.parse isDatetime = some parsed) :
    parsed = { revision with
      quoteRef := parsed.quoteRef
      boundRevisions := parsed.boundRevisions
      contentHash := parsed.contentHash } ∧
      revision.quoteRef.parse = some parsed.quoteRef ∧
      revision.boundRevisions.parse = some parsed.boundRevisions ∧
      parseTrimmedMost 128 revision.contentHash = some parsed.contentHash := by
  obtain ⟨-, planId, threadId, goalIds, refs, _, _, _, hplan', hthread', hgoals', hrefs', -, -, -,
    heq⟩ := parse_eq_some hself
  obtain rfl : planId = source.planId := congrArg PlanRevision.planId heq
  obtain rfl : threadId = source.threadId := congrArg PlanRevision.threadId heq
  obtain rfl : goalIds = source.goalIds := congrArg PlanRevision.goalIds heq
  obtain rfl : refs = source.authorityRefs := congrArg PlanRevision.authorityRefs heq
  obtain ⟨-, planId, threadId, goalIds, refs, quoteRef, bound, hash, hown, hown', hown'', hown''',
    hquote, hbound, hhash, rfl⟩ := parse_eq_some h
  rw [hplan, hplan', Option.some.injEq] at hown
  rw [hthread, hthread', Option.some.injEq] at hown'
  rw [hgoals, hgoals', Option.some.injEq] at hown''
  rw [hrefs, hrefs', Option.some.injEq] at hown'''
  refine ⟨?_, hquote, hbound, hhash⟩
  rw [← hown, ← hown', ← hown'', ← hown''', ← hplan, ← hthread, ← hgoals, ← hrefs]

/-- What is parsed of a draft: the source, with what was asked for. -/
theorem parse_liveDraft (hsource : source.parse setup.isDatetime = some source)
    (h : (liveDraft source input).parse setup.isDatetime = some revision) :
    revision = { liveDraft source input with
      quoteRef := revision.quoteRef
      boundRevisions := { source.boundRevisions with
        rightsRevisionIds := revision.boundRevisions.rightsRevisionIds } } ∧
      input.quoteRef.parse = some revision.quoteRef ∧
      parseRefs 50 input.rightsRevisionRefs =
        some revision.boundRevisions.rightsRevisionIds := by
  obtain ⟨hkept, hquote, hbound, hhash⟩ := @PlanRevision.parse_of_ids source
    (liveDraft source input) _ _ hsource rfl rfl rfl rfl h
  obtain ⟨-, _, _, _, _, _, bound, _, -, -, -, -, -, hself, -, heq⟩ :=
    PlanRevision.parse_eq_some hsource
  obtain rfl : bound = source.boundRevisions := congrArg PlanRevision.boundRevisions heq
  obtain ⟨hrest, hrights⟩ := PlanBoundRevisions.parse_rights hself hbound
  have hpending : parseTrimmedMost 128 "pending" = some "pending" := by decide
  have hhash' : revision.contentHash = "pending" := Option.some.inj (hhash.symm.trans hpending)
  refine ⟨?_, hquote, hrights⟩
  rw [← hrest]
  rw [hhash'] at hkept
  exact hkept

theorem mapM_of_parseRefs {most : Nat} {refs parsed : List String}
    (h : parseRefs most refs = some parsed) : refs.mapM parseTrimmed = some parsed := by
  rw [parseRefs] at h
  split at h
  · exact h
  · cases h

/-- **What a call appends is a successor**, and is parsed to itself. -/
theorem liveRevision_sound (hsource : source.parse setup.isDatetime = some source)
    (hexpected : input.expectedRevision = source.revision)
    (h : liveRevision setup source input = some revision) :
    revision.parse setup.isDatetime = some revision ∧ revision.planId = source.planId ∧
      ∀ plan billing billing', LiveSuccessor ⟨source, plan, billing⟩ input
        ⟨revision, plan, billing'⟩ := by
  simp only [liveRevision, Option.bind_eq_bind, Option.bind_eq_some_iff] at h
  obtain ⟨draft, hdraft, hrevision⟩ := h
  obtain ⟨hkept, hquote, hrights⟩ := parse_liveDraft hsource hdraft
  have hself := PlanRevision.settles_parse _ _ _ hdraft
  obtain ⟨hkept', hquote', hbound', -⟩ := @PlanRevision.parse_of_ids draft
    { draft with contentHash := setup.contentHash draft } _ _ hself rfl rfl rfl rfl hrevision
  obtain ⟨-, _, _, _, _, quoteRef, bound, _, -, -, -, -, hquoteSelf, hboundSelf, -, heq⟩ :=
    PlanRevision.parse_eq_some hself
  obtain rfl : quoteRef = draft.quoteRef := congrArg PlanRevision.quoteRef heq
  obtain rfl : bound = draft.boundRevisions := congrArg PlanRevision.boundRevisions heq
  have hquoteEq : revision.quoteRef = draft.quoteRef :=
    Option.some.inj (hquote'.symm.trans hquoteSelf)
  have hboundEq : revision.boundRevisions = draft.boundRevisions :=
    Option.some.inj (hbound'.symm.trans hboundSelf)
  have hfinal : revision = { liveDraft source input with
      quoteRef := draft.quoteRef
      boundRevisions := { source.boundRevisions with
        rightsRevisionIds := draft.boundRevisions.rightsRevisionIds }
      contentHash := revision.contentHash } := by
    rw [hkept', hquoteEq, hboundEq]
    dsimp only
    rw [hkept]
  refine ⟨PlanRevision.settles_parse _ _ _ hrevision, by rw [hfinal]; rfl,
    fun plan billing billing' => ?_⟩
  rw [hfinal]
  exact {
    revision := congrArg (· + 1) hexpected
    executionPlan := rfl
    kept := rfl
    quoteRef := hquote
    facts := rfl
    rights := mapM_of_parseRefs hrights
    marker := rfl }

end Successor

/-! ## Bindings, told apart -/

section Bindings

variable {input input' : RefreshPlanLiveBindingsInput}

theorem wellFormed_texts (values : List String) : (Json.texts values).WellFormed := by
  rw [Json.texts, Json.wellFormed_array]
  intro item hitem
  obtain ⟨value, -, rfl⟩ := List.mem_map.mp hitem
  trivial

theorem isNumeral_intText (n : Int) : Json.IsNumeral (intText n) := by
  have hrepr : intText n = n.repr := by cases n <;> rfl
  rw [hrepr]
  exact Json.isNumeral_int n

theorem wellFormed_revision (revision : RevisionValue) : revision.toJson.WellFormed := by
  cases revision with
  | number value => exact isNumeral_intText value
  | text value => trivial

theorem wellFormed_bindings (input : RefreshPlanLiveBindingsInput) : input.bindings.WellFormed := by
  rw [RefreshPlanLiveBindingsInput.bindings, Json.wellFormed_object]
  refine ⟨by simp, ?_⟩
  simp only [List.forall_mem_cons]
  refine ⟨Json.isNumeral_repr _, ?_, wellFormed_texts _, wellFormed_texts _,
    fun _ hfield => absurd hfield List.not_mem_nil⟩
  rw [AgentRevisionRef.toJson, Json.wellFormed_object]
  exact ⟨by simp, by simpa [Json.WellFormed] using wellFormed_revision _⟩

theorem same_texts {values values' : List String} (h : (Json.texts values).Same (.texts values')) :
    values = values' := by
  have hnormal : ∀ values : List String, Json.normalizeItems (values.map .text) =
      values.map .text := fun values => by
    rw [Json.normalizeItems_eq, List.map_map]
    rfl
  have hlists : values.map Json.text = values'.map .text := by
    have hitems := Json.array.inj (h : Json.normalize _ = Json.normalize _)
    rwa [hnormal, hnormal] at hitems
  exact List.map_injective_iff.mpr (fun _ _ => Json.text.inj) hlists

theorem same_revision {revision revision' : RevisionValue}
    (h : revision.toJson.Same revision'.toJson) : revision = revision' := by
  cases revision with
  | number value =>
    cases revision' with
    | number value' => exact congrArg _ (intText_injective (Json.number.inj h))
    | text value' => exact nomatch (h : Json.number _ = Json.text _)
  | text value =>
    cases revision' with
    | number value' => exact nomatch (h : Json.text _ = Json.number _)
    | text value' => exact congrArg _ (Json.text.inj h)

/-- **Bindings that are the same as JSON are the same.** -/
theorem binds_of_same (h : input.bindings.Same input'.bindings) : input.Binds input' := by
  have hnodup : ∀ input : RefreshPlanLiveBindingsInput,
      ([("sourcePlanRevision", Json.ofNat input.expectedRevision),
        ("quoteRef", input.quoteRef.toJson),
        ("rightsRevisionRefs", .texts input.rightsRevisionRefs),
        ("factRevisionRefs", .texts input.factRevisionRefs)].map Prod.fst).Nodup := by simp
  have hquote : input.quoteRef.toJson.Same input'.quoteRef.toJson :=
    h.field? (hnodup input) (hnodup input') "quoteRef" rfl rfl
  have hrights := h.field? (hnodup input) (hnodup input') "rightsRevisionRefs" rfl rfl
  have hfacts := h.field? (hnodup input) (hnodup input') "factRevisionRefs" rfl rfl
  have hid := hquote.field? (by simp) (by simp) "id" rfl rfl
  have hrevision := hquote.field? (by simp) (by simp) "revision" rfl rfl
  constructor
  · have hid' : input.quoteRef.id = input'.quoteRef.id := Json.text.inj hid
    have hrevision' := same_revision hrevision
    cases hq : input.quoteRef
    cases hq' : input'.quoteRef
    simp_all
  · exact same_texts hrights
  · exact same_texts hfacts

/-- What the digests of the calls' bindings are taken of. -/
def boundTexts (calls : Nat → LiveRefreshCall) : Set (List Char) :=
  Set.range fun i => JsValue.canonicalJson (.ofJson (calls i).input.bindings)

/-- Calls whose bindings have one fingerprint ask for the same bindings. -/
theorem binds_of_fingerprint {setup : LiveRefreshSetup} {calls : Nat → LiveRefreshCall}
    (hsha256 : Set.InjOn setup.sha256 (boundTexts calls)) {i j : Nat}
    (h : fingerprintOf setup (calls i).input.bindings =
      fingerprintOf setup (calls j).input.bindings) :
    (calls i).input.Binds (calls j).input := by
  have hwritten := hsha256 (Set.mem_range_self i) (Set.mem_range_self j) h
  exact binds_of_same ((JsValue.canonicalJson_ofJson_inj (wellFormed_bindings _)
    (wellFormed_bindings _)).mp hwritten)

end Bindings

/-! ## Steps of a run -/

section Run

variable {setup : LiveRefreshSetup} {source : PlanArtifact} {planId : String}
  {calls : Nat → LiveRefreshCall} {before : MemoryMarketingPlanStore} {s : LiveRefreshState}
  {call : LiveRefreshCall} {phase : RefreshPhase} {first latest : Option PlanArtifact}

/-- A plan, one of its revisions, and calls that refresh it. -/
structure Refreshes (setup : LiveRefreshSetup) (source : PlanArtifact) (planId : String)
    (calls : Nat → LiveRefreshCall) (before : MemoryMarketingPlanStore) : Prop where
  sound : ∀ planId, RowsSound setup.isDatetime planId (before.rowsOf planId)
  mem : source ∈ before.rowsOf planId
  planId : ∀ i, (calls i).input.planId = planId
  expected : ∀ i, (calls i).input.expectedRevision = source.revision.revision

/-- A call may return its successor, which is the latest revision. -/
def Returns (setup : LiveRefreshSetup) (input : RefreshPlanLiveBindingsInput)
    (latest : Option PlanArtifact) (result : RefreshPlanLiveBindingsResult) : Prop :=
  ∃ row, latest = some row ∧ IsSuccessor setup input row ∧ result = ⟨row, input.factRevisionRefs⟩

/-- **What a call knows** between two awaits, of the latest revision at `first` and now. -/
def RefreshPhase.Sound (setup : LiveRefreshSetup) (source : PlanArtifact)
    (input : RefreshPlanLiveBindingsInput) (first latest : Option PlanArtifact) :
    RefreshPhase → Prop
  | .called => True
  | .sourceRead source' => source' = source
  | .latestRead source' existing => source' = source ∧ (existing = first ∨ existing = latest)
  | .projecting result _ => Returns setup input latest result
  | .caught _ => ∃ row, latest = some row ∧ row.revision.revision = input.expectedRevision + 1
  | .done (.ok result) => Returns setup input latest result
  | .done (.error error) => Refused setup source input latest error

theorem assertMatchingLiveRefresh_eq_ok {artifact : PlanArtifact}
    {input : RefreshPlanLiveBindingsInput} {result : RefreshPlanLiveBindingsResult} :
    assertMatchingLiveRefresh setup artifact input = .ok result ↔
      Marks setup artifact input ∧ result = ⟨artifact, input.factRevisionRefs⟩ := by
  rw [assertMatchingLiveRefresh, Marks]
  cases liveMarker artifact.revision with
  | none => exact iff_of_false nofun fun ⟨⟨_, h, _⟩, _⟩ => nomatch h
  | some marker =>
    by_cases h : fingerprintOf setup marker = fingerprintOf setup input.bindings
    · simp [h, pure, Except.pure, eq_comm]
    · simp [h]

/-- **A successor that is there is returned**, where it is that of the call. -/
theorem sound_emit {row : PlanArtifact} (hlatest : latest = some row)
    (hrevision : row.revision.revision = call.input.expectedRevision + 1) (appended : Bool) :
    (call.emit appended (assertMatchingLiveRefresh setup row call.input)).Sound setup source
      call.input first latest := by
  cases h : assertMatchingLiveRefresh setup row call.input with
  | ok result =>
    obtain ⟨hmarks, hresult⟩ := assertMatchingLiveRefresh_eq_ok.mp h
    have hreturns : Returns setup call.input latest result :=
      ⟨row, hlatest, ⟨hrevision, hmarks⟩, hresult⟩
    rw [LiveRefreshCall.emit]
    split
    · exact hreturns
    · exact hreturns
  | error error =>
    refine Or.inr (Or.inr (Or.inr ⟨row, hlatest, by omega, fun hsuccessor => ?_⟩))
    rw [assertMatchingLiveRefresh_eq_ok.mpr ⟨hsuccessor.2, rfl⟩] at h
    cases h

/-- **A successor appended behind the source** leaves what the other calls know. -/
theorem RefreshPhase.Sound.appended {row row' : PlanArtifact}
    {input : RefreshPlanLiveBindingsInput}
    (hrevision : row.revision.revision = input.expectedRevision)
    (h : phase.Sound setup source input (some row) (some row)) :
    phase.Sound setup source input (some row) (some row') := by
  have hreturns : ∀ result, ¬ Returns setup input (some row) result := by
    rintro result ⟨other, hother, ⟨hsuccessor, -⟩, -⟩
    obtain rfl := Option.some.inj hother
    omega
  cases phase with
  | latestRead source' existing => exact ⟨h.1, Or.inl (h.2.elim id id)⟩
  | projecting result appended => exact absurd h (hreturns result)
  | caught error =>
    obtain ⟨other, hother, hsuccessor⟩ := h
    obtain rfl := Option.some.inj hother
    omega
  | done answer =>
    cases answer with
    | ok result => exact absurd h (hreturns result)
    | error error =>
      rcases h with hblank | hschema | ⟨-, other, hother, hsuccessor⟩ | ⟨other, hother, hne, -⟩
      · exact Or.inl hblank
      · exact Or.inr (Or.inl hschema)
      · obtain rfl := Option.some.inj hother
        have := hsuccessor.1
        omega
      · obtain rfl := Option.some.inj hother
        exact absurd hrevision hne
  | _ => exact h

/-- **What a run of calls keeps.** -/
structure RefreshInvariant (setup : LiveRefreshSetup) (source : PlanArtifact) (planId : String)
    (calls : Nat → LiveRefreshCall) (before : MemoryMarketingPlanStore) (s : LiveRefreshState) :
    Prop where
  sound : ∀ planId, RowsSound setup.isDatetime planId (s.store.rowsOf planId)
  rows : s.store.rowsOf planId = before.rowsOf planId ∨
    (∃ row, (before.rowsOf planId).getLast? = some row ∧
      row.revision.revision = source.revision.revision) ∧
    ∃ i row, s.store.rowsOf planId = before.rowsOf planId ++ [row] ∧
      LiveSuccessor source (calls i).input row
  others : ∀ other, other ≠ planId → s.store.rowsOf other = before.rowsOf other
  phases : ∀ i, (s.phases i).Sound setup source (calls i).input (before.rowsOf planId).getLast?
    (s.store.rowsOf planId).getLast?

/-- The latest revision is that of the source, or the store has its successor. -/
theorem RefreshInvariant.not_appended
    (hI : RefreshInvariant setup source planId calls before s) {row : PlanArtifact}
    (hlatest : (s.store.rowsOf planId).getLast? = some row)
    (hrevision : row.revision.revision = source.revision.revision) :
    s.store.rowsOf planId = before.rowsOf planId := by
  rcases hI.rows with hrows | ⟨-, i, successor, hrows, hsuccessor⟩
  · exact hrows
  · rw [hrows, List.getLast?_append, List.getLast?_singleton, Option.some_or,
      Option.some.injEq] at hlatest
    subst hlatest
    have := hsuccessor.revision
    omega

/-- A call goes on, and the store stays. -/
theorem RefreshInvariant.put (hI : RefreshInvariant setup source planId calls before s) (i : Nat)
    (hphase : phase.Sound setup source (calls i).input (before.rowsOf planId).getLast?
      (s.store.rowsOf planId).getLast?) :
    RefreshInvariant setup source planId calls before
      { s with phases := Function.update s.phases i phase } where
  sound := hI.sound
  rows := hI.rows
  others := hI.others
  phases j := by
    by_cases heq : j = i
    · subst heq
      change (Function.update s.phases j phase j).Sound _ _ _ _ _
      rwa [Function.update_self]
    · change (Function.update s.phases i phase j).Sound _ _ _ _ _
      rw [Function.update_of_ne heq]
      exact hI.phases j

/-- A latest revision that was read, and is not the source, is still the latest. -/
theorem RefreshInvariant.current (hI : RefreshInvariant setup source planId calls before s)
    {row : PlanArtifact} (hread : some row = (before.rowsOf planId).getLast? ∨
      some row = (s.store.rowsOf planId).getLast?)
    (hne : row.revision.revision ≠ source.revision.revision) :
    (s.store.rowsOf planId).getLast? = some row := by
  rcases hread with hfirst | hcurrent
  · rcases hI.rows with hrows | ⟨⟨first, hlast, hrevision⟩, -⟩
    · rw [hrows]
      exact hfirst.symm
    · obtain rfl := Option.some.inj (hfirst.trans hlast)
      exact absurd hrevision hne
  · exact hcurrent.symm

variable (hrefreshes : Refreshes setup source planId calls before)

include hrefreshes

/-- The source stays in the store. -/
theorem RefreshInvariant.source_mem (hI : RefreshInvariant setup source planId calls before s) :
    source ∈ s.store.rowsOf planId := by
  rcases hI.rows with hrows | ⟨-, i, row, hrows, -⟩
  · rw [hrows]
    exact hrefreshes.mem
  · rw [hrows]
    exact List.mem_append_left _ hrefreshes.mem

/-- The source is read where it stands. -/
theorem RefreshInvariant.getRevision_eq (hI : RefreshInvariant setup source planId calls before s) :
    s.store.getRevision planId source.revision.revision = some source := by
  have hmem := hI.source_mem hrefreshes
  cases hfind : s.store.getRevision planId source.revision.revision with
  | none =>
    have hne := List.find?_eq_none.mp hfind source hmem
    exact absurd (decide_eq_true rfl) hne
  | some row =>
    have hrevision : row.revision.revision = source.revision.revision :=
      of_decide_eq_true (List.find?_some hfind :)
    rw [(hI.sound planId).sequential.unique (List.mem_of_find?_eq_some hfind) hmem hrevision]

theorem exists_first : ∃ row, (before.rowsOf planId).getLast? = some row := by
  cases h : (before.rowsOf planId).getLast? with
  | none =>
    have hmem := hrefreshes.mem
    rw [List.getLast?_eq_none_iff.mp h] at hmem
    exact absurd hmem List.not_mem_nil
  | some row => exact ⟨row, rfl⟩

/-- There is a latest revision, the first one or a successor. -/
theorem RefreshInvariant.exists_latest (hI : RefreshInvariant setup source planId calls before s) :
    ∃ row, (s.store.rowsOf planId).getLast? = some row := by
  have hmem := hI.source_mem hrefreshes
  cases h : (s.store.rowsOf planId).getLast? with
  | none =>
    rw [List.getLast?_eq_none_iff.mp h] at hmem
    exact absurd hmem List.not_mem_nil
  | some row => exact ⟨row, rfl⟩

/-- **What an append comes to**: a successor behind the source, or the error of an append that came
too late. -/
theorem append_cases (hI : RefreshInvariant setup source planId calls before s) (i : Nat)
    {revision : PlanRevision}
    (hrevision : liveRevision setup source.revision (calls i).input = some revision) :
    (∃ row, LiveSuccessor source (calls i).input row ∧
      s.store.rowsOf planId = before.rowsOf planId ∧
      (∃ latest, (before.rowsOf planId).getLast? = some latest ∧
        latest.revision.revision = source.revision.revision) ∧
      s.store.append setup.isDatetime { revision, executionPlan := source.executionPlan } =
        .ok (row, s.store.set planId (before.rowsOf planId ++ [row]))) ∨
    (∀ latest, (s.store.rowsOf planId).getLast? = some latest →
      latest.revision.revision ≠ source.revision.revision) ∧
      ∃ error, s.store.append setup.isDatetime
        { revision, executionPlan := source.executionPlan } = .error error := by
  obtain ⟨hplan, hsource⟩ := (hrefreshes.sound planId).parsed source hrefreshes.mem
  simp only [MemoryMarketingPlanStore.appendedRow, Option.bind_eq_bind, Option.bind_eq_some_iff,
    Option.pure_def, Option.some.injEq] at hsource
  obtain ⟨parsed, hparsed, plan, hexecution, heq⟩ := hsource
  obtain rfl : parsed = source.revision := congrArg PlanArtifact.revision heq
  obtain rfl : plan = source.executionPlan := congrArg PlanArtifact.executionPlan heq
  obtain ⟨hself, hplanId, hsuccessor⟩ :=
    liveRevision_sound hparsed (hrefreshes.expected i) hrevision
  have hrow : MemoryMarketingPlanStore.appendedRow setup.isDatetime
      { revision, executionPlan := source.executionPlan } =
        some { revision, executionPlan := source.executionPlan } := by
    simp [MemoryMarketingPlanStore.appendedRow, hself, hexecution]
  have hlive : LiveSuccessor source (calls i).input
      { revision, executionPlan := source.executionPlan } := hsuccessor _ _ _
  have hkey : revision.planId = planId := hplanId.trans hplan
  obtain ⟨latest, hlatest⟩ := hI.exists_latest hrefreshes
  by_cases hnext : latest.revision.revision = source.revision.revision
  · refine Or.inl ⟨_, hlive, hI.not_appended hlatest hnext, ⟨latest, ?_, hnext⟩, ?_⟩
    · rw [← hI.not_appended hlatest hnext, hlatest]
    · rw [← hI.not_appended hlatest hnext]
      refine MemoryMarketingPlanStore.append_eq_ok.mpr ⟨hrow, ?_, ?_⟩
      · dsimp only
        rw [hkey, hlatest, Option.map_some, Option.getD_some, hnext]
        exact hlive.revision
      · dsimp only
        rw [hkey]
  · refine Or.inr ⟨fun other hother => ?_, ?_⟩
    · rw [hlatest] at hother
      obtain rfl := Option.some.inj hother
      exact hnext
    · cases happend : s.store.append setup.isDatetime
          { revision, executionPlan := source.executionPlan } with
      | error error => exact ⟨error, rfl⟩
      | ok stored =>
        obtain ⟨row, store'⟩ := stored
        obtain ⟨hsame, hsequence, -⟩ := MemoryMarketingPlanStore.append_eq_ok.mp happend
        obtain rfl := Option.some.inj (hrow.symm.trans hsame)
        dsimp only at hsequence
        rw [hkey, hlatest, Option.map_some, Option.getD_some] at hsequence
        have := hlive.revision
        dsimp only at this
        omega

/-- **The call that appends** goes on with its successor. -/
theorem refreshInvariant_append (hI : RefreshInvariant setup source planId calls before s) (i : Nat)
    (hexisting : ∃ existing, existing.revision.revision = source.revision.revision ∧
      (some existing = (before.rowsOf planId).getLast? ∨
        some existing = (s.store.rowsOf planId).getLast?)) :
    RefreshInvariant setup source planId calls before
      { store := (appendSuccessor setup (calls i) s.store source
          (liveRevision setup source.revision (calls i).input)).2
        phases := Function.update s.phases i (appendSuccessor setup (calls i) s.store source
          (liveRevision setup source.revision (calls i).input)).1 } := by
  cases hrevision : liveRevision setup source.revision (calls i).input with
  | none =>
    exact hI.put i (Or.inr (Or.inl hrevision))
  | some revision =>
    rw [appendSuccessor]
    rcases append_cases hrefreshes hI i hrevision with
      ⟨row, hsuccessor, hrows, ⟨latest, hlatest, hbehind⟩, happend⟩ | ⟨hlate, error, happend⟩
    · rw [happend]
      dsimp only
      have hnew : MemoryMarketingPlanStore.rowsOf
          (s.store.set planId (before.rowsOf planId ++ [row])) planId =
            before.rowsOf planId ++ [row] := by
        rw [MemoryMarketingPlanStore.rowsOf_set, if_pos rfl]
      have hlast : (before.rowsOf planId ++ [row]).getLast? = some row := by
        rw [List.getLast?_append, List.getLast?_singleton, Option.some_or]
      have hexpected := hrefreshes.expected i
      have hreturns : Returns setup (calls i).input (some row)
          ⟨row, (calls i).input.factRevisionRefs⟩ :=
        ⟨row, rfl, ⟨by rw [hexpected]; exact hsuccessor.revision,
          ⟨(calls i).input.bindings, hsuccessor.marker, rfl⟩⟩, rfl⟩
      constructor
      · exact MemoryMarketingPlanStore.rowsSound_append hI.sound happend
      · exact Or.inr ⟨⟨latest, hlatest, hbehind⟩, i, row, hnew, hsuccessor⟩
      · intro other hother
        exact (MemoryMarketingPlanStore.rowsOf_set _ _ _ _).trans
          ((if_neg hother).trans (hI.others other hother))
      · intro j
        dsimp only
        rw [hnew, hlast]
        by_cases heq : j = i
        · subst heq
          rw [Function.update_self, LiveRefreshCall.emit]
          split
          · exact hreturns
          · exact hreturns
        · rw [Function.update_of_ne heq]
          have hphase := hI.phases j
          rw [hrows, hlatest] at hphase
          rw [hlatest]
          exact hphase.appended (hbehind.trans (hrefreshes.expected j).symm)
    · rw [happend]
      refine hI.put i ?_
      obtain ⟨existing, hrevision, hfirst | hlatest⟩ := hexisting
      · rcases hI.rows with hrows | ⟨-, j, row, hrows, hsuccessor⟩
        · rw [← hrows] at hfirst
          exact absurd hrevision (hlate existing hfirst.symm)
        · refine ⟨row, ?_, ?_⟩
          · rw [hrows, List.getLast?_append, List.getLast?_singleton, Option.some_or]
          · rw [hrefreshes.expected i]
            exact hsuccessor.revision
      · exact absurd hrevision (hlate existing hlatest.symm)

/-- **A step keeps it.** -/
theorem refreshInvariant_step (hI : RefreshInvariant setup source planId calls before s)
    (move : Nat × Bool) :
    RefreshInvariant setup source planId calls before (s.step setup calls move) := by
  obtain ⟨i, projected⟩ := move
  have hphase := hI.phases i
  have hplan := hrefreshes.planId i
  have hexpected := hrefreshes.expected i
  obtain ⟨latest, hlatest⟩ := hI.exists_latest hrefreshes
  rw [LiveRefreshState.step]
  cases hcase : s.phases i with
  | called =>
    rw [LiveRefreshCall.advance, hplan, hexpected, hI.getRevision_eq hrefreshes]
    exact hI.put i rfl
  | sourceRead source' =>
    rw [hcase] at hphase
    obtain rfl : source' = source := hphase
    rw [LiveRefreshCall.advance]
    split
    · next hblank => exact hI.put i (Or.inl hblank)
    · refine hI.put i ⟨rfl, Or.inr ?_⟩
      rw [hplan]
      rfl
  | latestRead source' existing =>
    rw [hcase] at hphase
    obtain ⟨rfl, hexisting⟩ := hphase
    rw [LiveRefreshCall.advance]
    cases hfilter : existing.filter
        (·.revision.revision = (calls i).input.expectedRevision + 1) with
    | some artifact =>
      obtain ⟨hsome, hsuccessor⟩ := Option.filter_eq_some_iff.mp hfilter
      have hnext : artifact.revision.revision = (calls i).input.expectedRevision + 1 :=
        of_decide_eq_true hsuccessor
      rw [hsome] at hexisting
      have hcurrent := hI.current hexisting (by omega)
      exact hI.put i (sound_emit hcurrent hnext false)
    | none =>
      dsimp only
      split
      · next hother =>
        obtain ⟨row, hrow⟩ : ∃ row, existing = some row := by
          rcases hexisting with hfirst | hcurrent
          · obtain ⟨row, hrow⟩ := exists_first hrefreshes
            exact ⟨row, hfirst.trans hrow⟩
          · exact ⟨latest, hcurrent.trans hlatest⟩
        subst hrow
        have hne : row.revision.revision ≠ (calls i).input.expectedRevision :=
          fun heq => hother (congrArg some heq)
        have hcurrent := hI.current hexisting (by omega)
        refine hI.put i (Or.inr (Or.inr (Or.inr ⟨row, hcurrent, hne, fun hsuccessor => ?_⟩)))
        rw [Option.filter_some, if_pos (decide_eq_true hsuccessor.1)] at hfilter
        cases hfilter
      · next hsame =>
        obtain ⟨row, rfl, hrow⟩ := Option.map_eq_some_iff.mp (not_not.mp hsame)
        exact refreshInvariant_append hrefreshes hI i ⟨row, hrow.trans hexpected, hexisting⟩
  | projecting result appended =>
    rw [hcase] at hphase
    obtain ⟨row, hrow, hsuccessor, hresult⟩ := hphase
    rw [LiveRefreshCall.advance]
    split
    · exact hI.put i ⟨row, hrow, hsuccessor, hresult⟩
    · split
      · exact hI.put i ⟨row, hrow, hsuccessor.1⟩
      · exact hI.put i (Or.inr (Or.inr (Or.inl ⟨rfl, row, hrow, hsuccessor⟩)))
  | caught error =>
    rw [hcase] at hphase
    obtain ⟨row, hrow, hsuccessor⟩ := hphase
    have hfilter : (s.store.getLatest (calls i).input.planId).filter
        (·.revision.revision = (calls i).input.expectedRevision + 1) = some row := by
      rw [hplan]
      refine (congrArg (Option.filter _) hrow).trans ?_
      rw [Option.filter_some, if_pos (decide_eq_true hsuccessor)]
    rw [LiveRefreshCall.advance, hfilter]
    exact hI.put i (sound_emit hrow hsuccessor false)
  | done answer =>
    rw [hcase] at hphase
    exact hI.put i hphase

theorem refreshInvariant_run (moves : List (Nat × Bool)) :
    RefreshInvariant setup source planId calls before
      (LiveRefreshState.refresh setup calls moves before) := by
  refine Effect.runAll_invariant (RefreshInvariant setup source planId calls before)
    (fun s move hI => refreshInvariant_step hrefreshes hI move) moves ?_
  exact {
    sound := hrefreshes.sound
    rows := Or.inl rfl
    others := fun _ _ => rfl
    phases := fun _ => trivial }

/-- **What the invariant says of the calls that have ended.** -/
theorem RefreshInvariant.refreshed
    (hI : RefreshInvariant setup source planId calls before s)
    (hsha256 : Set.InjOn setup.sha256 (boundTexts calls)) :
    LiveRefreshed setup source planId calls before s := by
  have hreturned : ∀ i result, s.phases i = .done (.ok result) →
      Returns setup (calls i).input (s.store.rowsOf planId).getLast? result := by
    intro i result hdone
    have hphase := hI.phases i
    rwa [hdone] at hphase
  have hfailed : ∀ i error, s.phases i = .done (.error error) →
      Refused setup source (calls i).input (s.store.rowsOf planId).getLast? error := by
    intro i error hdone
    have hphase := hI.phases i
    rwa [hdone] at hphase
  constructor
  · rcases hI.rows with hrows | ⟨-, i, row, hrows, hsuccessor⟩
    · exact Or.inl hrows
    · refine Or.inr ⟨i, row, hrows, hsuccessor, fun j result hdone => ?_⟩
      obtain ⟨last, hlast, ⟨-, marker, hmarker, hsame⟩, -⟩ := hreturned j result hdone
      rw [hrows, List.getLast?_append, List.getLast?_singleton, Option.some_or,
        Option.some.injEq] at hlast
      subst hlast
      obtain rfl := Option.some.inj (hsuccessor.marker.symm.trans hmarker)
      exact binds_of_fingerprint hsha256 hsame.symm
  · exact fun row hrow row' hrow' => (hI.sound planId).sequential.unique hrow hrow'
  · exact hI.others
  · exact hreturned
  · intro i j result result' hdone hdone'
    obtain ⟨row, hrow, ⟨-, marker, hmarker, hsame⟩, rfl⟩ := hreturned i result hdone
    obtain ⟨row', hrow', ⟨-, marker', hmarker', hsame'⟩, rfl⟩ := hreturned j result' hdone'
    obtain rfl := Option.some.inj (hrow.symm.trans hrow')
    obtain rfl := Option.some.inj (hmarker.symm.trans hmarker')
    exact ⟨rfl, binds_of_fingerprint hsha256 (hsame.symm.trans hsame')⟩
  · exact hfailed
  · intro i answer hdone hfirst hworkspace hparsed hrows
    have hbehind : ∀ row, (s.store.rowsOf planId).getLast? = some row →
        row.revision.revision = (calls i).input.expectedRevision := by
      intro row hrow
      rw [hrows] at hrow
      rw [hrow, Option.map_some, Option.some.injEq] at hfirst
      exact hfirst.trans (hrefreshes.expected i).symm
    cases answer with
    | ok result =>
      obtain ⟨row, hrow, hsuccessor, -⟩ := hreturned i result hdone
      have := hbehind row hrow
      have := hsuccessor.1
      omega
    | error error =>
      rcases hfailed i error hdone with hblank | hschema | ⟨-, row, hrow, hsuccessor⟩ |
        ⟨row, hrow, hne, -⟩
      · rw [hblank] at hworkspace
        exact nomatch hworkspace
      · exact hparsed hschema
      · have := hbehind row hrow
        have := hsuccessor.1
        omega
      · exact hne (hbehind row hrow)

end Run

/-! ## Refreshing a stored revision -/

/-- A call that has taken six steps has ended. -/
def EndsInSix (calls : List (Nat × Bool)) (s : LiveRefreshState) : Prop :=
  ∀ i, 6 ≤ (calls.filter (·.1 = i)).length → ∃ answer, s.phases i = .done answer

theorem done_of_rank {phase : RefreshPhase} (h : phase.rank = 0) :
    ∃ answer, phase = .done answer := by
  cases phase with
  | done answer => exact ⟨answer, rfl⟩
  | projecting result appended => cases appended <;> exact nomatch h
  | _ => exact nomatch h

theorem endsInSix_run (setup : LiveRefreshSetup) (calls : Nat → LiveRefreshCall)
    (moves : List (Nat × Bool)) (store : MemoryMarketingPlanStore) :
    EndsInSix moves (LiveRefreshState.refresh setup calls moves store) := by
  intro i hmoves
  have hrank := rank_run setup calls i moves { store, phases := fun _ => .called }
  have hcalled : RefreshPhase.called.rank = 6 := rfl
  rw [hcalled] at hrank
  exact done_of_rank (by rw [LiveRefreshState.refresh]; omega)

/-- **Live bindings are refreshed once**: of any revision of any plan that was stored, whatever
calls refresh it and in whatever order they take their steps. -/
theorem liveRefreshed_run (setup : LiveRefreshSetup) (inputs : List PlanArtifact) (planId : String)
    (revision : Nat) (source : PlanArtifact) (calls : Nat → LiveRefreshCall)
    (moves : List (Nat × Bool))
    (hsource : (MemoryMarketingPlanStore.stored setup.isDatetime inputs).getRevision planId
      revision = some source)
    (hcalls : ∀ i, (calls i).input.planId = planId ∧
      (calls i).input.expectedRevision = revision)
    (hsha256 : Set.InjOn setup.sha256 (boundTexts calls)) :
    LiveRefreshed setup source planId calls
      (MemoryMarketingPlanStore.stored setup.isDatetime inputs)
      (LiveRefreshState.refresh setup calls moves
        (MemoryMarketingPlanStore.stored setup.isDatetime inputs)) ∧
    EndsInSix moves (LiveRefreshState.refresh setup calls moves
      (MemoryMarketingPlanStore.stored setup.isDatetime inputs)) := by
  have hrevision : source.revision.revision = revision :=
    of_decide_eq_true (List.find?_some hsource :)
  have hrefreshes : Refreshes setup source planId calls
      (MemoryMarketingPlanStore.stored setup.isDatetime inputs) := {
    sound := MemoryMarketingPlanStore.rowsSound_stored inputs
    mem := List.mem_of_find?_eq_some hsource
    planId := fun i => (hcalls i).1
    expected := fun i => (hcalls i).2.trans hrevision.symm }
  exact ⟨(refreshInvariant_run hrefreshes moves).refreshed hrefreshes hsha256,
    endsInSix_run setup calls moves _⟩

/-! ### The plan of a spring campaign -/

/-- A digest that is right for the bindings of `springCall`. -/
def springSetup : LiveRefreshSetup where
  isDatetime text := text ∈ ["2026-03-01T00:00:00.000Z", "2026-04-01T00:00:00.000Z"]
  sha256 _ := "861f4250b214a9cd9bbd7119093fa3e49bfc120619ea6f694b9f6884d1dc3919"
  contentHash _ := "5feceb66ffc86f38d952786c6d696c79c2dbc239dd4e91b46729d73a27fb57e9"

def springRevision (revision : Nat) : PlanRevision where
  planId := "plan-1"
  revision := revision
  threadId := "thread-1"
  goalIds := ["goal-1"]
  scope := .object []
  intent := .object []
  memoryContext := none
  goal := .object [("summary", .text "spring")]
  deliverables := .array []
  expression := .object []
  factUsages := []
  authorityRefs := []
  assetUsages := []
  rightsSummary := .null
  complianceSummary := .null
  capabilitySummary := .null
  quoteRef := ⟨"quote-1", .number 1⟩
  boundRevisions := {
    intentRevision := 1
    contextBundleId := "bundle-1"
    contextRevision := "1"
    recipeRevisionIds := []
    catalogRevisionId := "catalog-1"
    modelRevisionIds := []
    sourceRevisionIds := []
    rightsRevisionIds := []
    harnessReleaseId := "release-1" }
  contentHash := "hash"
  expiresAt := "2026-04-01T00:00:00.000Z"
  createdAt := "2026-03-01T00:00:00.000Z"

def springArtifact (revision : Nat) : PlanArtifact where
  revision := springRevision revision
  executionPlan := {
    units := [{ unitId := "unit-1", unitType := "context.read" }]
    dependencyGroups := [] }

def springCall : LiveRefreshCall where
  input := {
    planId := "plan-1"
    expectedRevision := 1
    quoteRef := ⟨"quote-2", .number 1⟩
    rightsRevisionRefs := ["rights-1"]
    factRevisionRefs := ["fact-1"]
    now := "2026-03-01T00:00:00.000Z"
    workspaceId := "shop" }
  emitAfterAppend := true

/-- The plan has one revision, and two calls refresh it side by side. -/
theorem liveRefreshed_spring : ∃ source,
    (MemoryMarketingPlanStore.stored springSetup.isDatetime [springArtifact 1]).getRevision "plan-1"
      1 = some source ∧
    LiveRefreshed springSetup source "plan-1" (fun _ => springCall)
      (MemoryMarketingPlanStore.stored springSetup.isDatetime [springArtifact 1])
      (LiveRefreshState.refresh springSetup (fun _ => springCall)
        [(0, true), (1, true), (0, true), (1, true), (0, true), (1, true), (1, true)]
        (MemoryMarketingPlanStore.stored springSetup.isDatetime [springArtifact 1])) := by
  obtain ⟨source, hsource⟩ : ∃ source, (MemoryMarketingPlanStore.stored springSetup.isDatetime
      [springArtifact 1]).getRevision "plan-1" 1 = some source :=
    Option.isSome_iff_exists.mp (by decide +kernel)
  have hsha256 : Set.InjOn springSetup.sha256 (boundTexts fun _ => springCall) := by
    rw [boundTexts, Set.range_const]
    exact Set.injOn_singleton _ _
  exact ⟨source, hsource, (liveRefreshed_run springSetup [springArtifact 1] "plan-1" 1 source
    (fun _ => springCall) _ hsource (fun _ => ⟨rfl, rfl⟩) hsha256).1⟩

/-- **A plan that has gone on to other revisions is not refreshed**: of the first of three
revisions, no successor is appended. -/
theorem not_refreshed_each : ¬ ∀ (setup : LiveRefreshSetup) (inputs : List PlanArtifact)
    (planId : String) (revision : Nat) (source : PlanArtifact) (calls : Nat → LiveRefreshCall)
    (moves : List (Nat × Bool)),
    (MemoryMarketingPlanStore.stored setup.isDatetime inputs).getRevision planId revision =
      some source →
    (∀ i, (calls i).input.planId = planId ∧ (calls i).input.expectedRevision = revision) →
    (∃ i answer, (LiveRefreshState.refresh setup calls moves
      (MemoryMarketingPlanStore.stored setup.isDatetime inputs)).phases i = .done answer) →
    ∃ row, (LiveRefreshState.refresh setup calls moves
      (MemoryMarketingPlanStore.stored setup.isDatetime inputs)).store.rowsOf planId =
        (MemoryMarketingPlanStore.stored setup.isDatetime inputs).rowsOf planId ++ [row] := by
  intro h
  obtain ⟨source, hsource⟩ : ∃ source, (MemoryMarketingPlanStore.stored springSetup.isDatetime
      ([1, 2, 3].map springArtifact)).getRevision "plan-1" 1 = some source :=
    Option.isSome_iff_exists.mp (by decide +kernel)
  have hdone : ((LiveRefreshState.refresh springSetup (fun _ => springCall)
      [(0, true), (0, true), (0, true)] (MemoryMarketingPlanStore.stored springSetup.isDatetime
        ([1, 2, 3].map springArtifact))).phases 0).rank = 0 := by decide +kernel
  obtain ⟨answer, hanswer⟩ := done_of_rank hdone
  obtain ⟨row, hrow⟩ := h springSetup ([1, 2, 3].map springArtifact) "plan-1" 1 source
    (fun _ => springCall) [(0, true), (0, true), (0, true)] hsource (fun _ => ⟨rfl, rfl⟩)
    ⟨0, answer, hanswer⟩
  have hlength := congrArg List.length hrow
  rw [List.length_append, List.length_singleton] at hlength
  revert hlength
  decide +kernel

end MeiyeAgent
