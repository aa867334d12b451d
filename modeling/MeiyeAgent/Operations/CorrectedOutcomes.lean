import Mathlib.Logic.Function.Basic
import MeiyeAgent.Operations.ResultSignals

/-!
# Operations/CorrectedOutcomes — what is reported of a package is corrected, not multiplied

Rows that supersede one another are about one fact (`factOf`).  A run keeps one active row a fact,
and none once that is withdrawn, as long as no row is superseded twice (`Unforked`): then each fact
ends in one row (`OneLast`).  A record call that is answered for an earlier row leaves an active one
as long as that row is superseded by none (`Upheld`).
-/

namespace MeiyeAgent

/-! ## Facts -/

section Facts

/-- A row that is superseded by none, and says something. -/
def ContentPackageResultSignal.current (row : ContentPackageResultSignal) : Bool :=
  row.contentPackageRevision.isSome ∧ row.statusOrActive ≠ .withdrawn ∧
    row.statusOrActive ≠ .superseded

/-- The row that another names as the one it supersedes. -/
def ContentPackageResultSignal.prior (row : ContentPackageResultSignal) : Option String :=
  truthy row.supersedesSignalId

/-- **The fact a row is about**: that of the row it supersedes, or one of its own where it names
none that is there. -/
def factOf (history : List ContentPackageResultSignal) : String → Option String :=
  history.foldl (fun fact row => Function.update fact row.id
    (some ((row.prior.bind fact).getD row.id))) fun _ => none

/-- **The last row of a fact**: of a known revision, and superseded by none. -/
structure Last (history : List ContentPackageResultSignal) (row : ContentPackageResultSignal) :
    Prop where
  mem : row ∈ history
  known : row.contentPackageRevision.isSome
  prior : ∀ other ∈ history, other.prior ≠ some row.id

/-- A fact has one last row at most. -/
def OneLast (history : List ContentPackageResultSignal) : Prop :=
  ∀ a b, Last history a → Last history b → factOf history a.id = factOf history b.id → a = b

/-- **A row that may be superseded**: it is by none yet, and one of an unknown revision only where
nothing of a known revision is about its fact. -/
def Open (history : List ContentPackageResultSignal) (row : ContentPackageResultSignal) : Bool :=
  (history.all fun other => other.prior ≠ some row.id) ∧ (row.contentPackageRevision.isSome ∨
    history.all fun other =>
      factOf history other.id ≠ factOf history row.id ∨ other.contentPackageRevision = none)

/-- No two active rows are about one fact. -/
def OneActive (history : List ContentPackageResultSignal) : Prop :=
  ∀ a ∈ projectActiveResultSignals history, ∀ b ∈ projectActiveResultSignals history,
    factOf history a.id = factOf history b.id → a = b

/-- **A fact whose active row was withdrawn has none** until it is corrected. -/
def WithdrawnForGood (history : List ContentPackageResultSignal) : Prop :=
  ∀ before row after, history = before ++ row :: after → row.statusOrActive = .withdrawn →
    (∃ active ∈ projectActiveResultSignals before, row.prior = some active.id) →
    (∀ later ∈ after, factOf history later.id = factOf history row.id →
      later.statusOrActive = .withdrawn) →
    ∀ active ∈ projectActiveResultSignals history, factOf history active.id ≠ factOf history row.id

variable {history : List ContentPackageResultSignal} {row new : ContentPackageResultSignal}
  {id : String}

theorem mem_active : row ∈ projectActiveResultSignals history ↔
    row ∈ history ∧ row.current = true ∧ ∀ other ∈ history, other.prior ≠ some row.id := by
  simp only [projectActiveResultSignals, List.mem_filter, List.mem_filterMap,
    ContentPackageResultSignal.current, ContentPackageResultSignal.prior, decide_eq_true_eq,
    not_exists, not_and, ne_eq]
  tauto

theorem factOf_append : factOf (history ++ [new]) = Function.update (factOf history) new.id
    (some ((new.prior.bind (factOf history)).getD new.id)) := by
  rw [factOf, List.foldl_append]
  rfl

theorem factOf_append_of_ne (h : id ≠ new.id) :
    factOf (history ++ [new]) id = factOf history id := by
  rw [factOf_append, Function.update_of_ne h]

theorem factOf_append_self : factOf (history ++ [new]) new.id =
    some ((new.prior.bind (factOf history)).getD new.id) := by
  rw [factOf_append, Function.update_self]

theorem exists_factOf (h : row ∈ history) : ∃ fact, factOf history row.id = some fact := by
  induction history using List.reverseRecOn with
  | nil => exact absurd h List.not_mem_nil
  | append_singleton history new ih =>
    by_cases hid : row.id = new.id
    · rw [hid]
      exact ⟨_, factOf_append_self⟩
    · rw [factOf_append_of_ne hid]
      refine ih ((List.mem_append.mp h).resolve_right fun h => hid ?_)
      rw [List.mem_singleton.mp h]

/-- Only rows are about facts, and a fact goes by the name of a row. -/
theorem mem_of_factOf {fact : String} (h : factOf history id = some fact) :
    (∃ row ∈ history, row.id = id) ∧ ∃ row ∈ history, row.id = fact := by
  induction history using List.reverseRecOn generalizing id fact with
  | nil => exact nomatch h
  | append_singleton history new ih =>
    have hlift : ∀ {name : String}, (∃ row ∈ history, row.id = name) →
        ∃ row ∈ history ++ [new], row.id = name := fun ⟨row, hrow, hname⟩ =>
      ⟨row, List.mem_append_left _ hrow, hname⟩
    by_cases hid : id = new.id
    · refine ⟨⟨new, by simp, hid.symm⟩, ?_⟩
      rw [hid, factOf_append_self, Option.some.injEq] at h
      cases hprior : new.prior.bind (factOf history) with
      | none =>
        rw [hprior, Option.getD_none] at h
        exact ⟨new, by simp, h⟩
      | some fact' =>
        rw [hprior, Option.getD_some] at h
        obtain ⟨prior, -, hfact⟩ := Option.bind_eq_some_iff.mp hprior
        exact hlift (ih (h ▸ hfact)).2
    · rw [factOf_append_of_ne hid] at h
      exact ⟨hlift (ih h).1, hlift (ih h).2⟩

/-- A row whose id is named nowhere yet. -/
structure New (history : List ContentPackageResultSignal) (new : ContentPackageResultSignal) :
    Prop where
  id : ∀ row ∈ history, row.id ≠ new.id
  prior : ∀ row ∈ history, row.prior ≠ some new.id
  self : new.prior ≠ some new.id

theorem New.ids {history : List ContentPackageResultSignal} {new : ContentPackageResultSignal}
    (hnew : New history new) (h : (history.map (·.id)).Nodup) :
    ((history ++ [new]).map (·.id)).Nodup := by
  rw [List.map_append, List.map_singleton]
  refine List.nodup_append.mpr ⟨h, List.nodup_singleton _, ?_⟩
  rintro a ha b hb rfl
  obtain ⟨row, hrow, rfl⟩ := List.mem_map.mp ha
  exact hnew.id row hrow (List.mem_singleton.mp hb)

/-- **What one more row leaves active.** -/
theorem active_append (hnew : New history new) :
    row ∈ projectActiveResultSignals (history ++ [new]) ↔
      (row ∈ projectActiveResultSignals history ∧ new.prior ≠ some row.id) ∨
        (row = new ∧ new.current = true) := by
  rw [mem_active, mem_active]
  simp only [List.mem_append, List.mem_singleton]
  constructor
  · rintro ⟨hmem | rfl, hcurrent, hprior⟩
    · exact .inl ⟨⟨hmem, hcurrent, fun other h => hprior other (.inl h)⟩, hprior new (.inr rfl)⟩
    · exact .inr ⟨rfl, hcurrent⟩
  · rintro (⟨⟨hmem, hcurrent, hprior⟩, hnot⟩ | ⟨rfl, hcurrent⟩)
    · refine ⟨.inl hmem, hcurrent, ?_⟩
      rintro other (h | rfl)
      · exact hprior other h
      · exact hnot
    · refine ⟨.inr rfl, hcurrent, ?_⟩
      rintro other (h | rfl)
      · exact hnew.prior other h
      · exact hnew.self

/-- A new row is about the fact of the row it supersedes, if that is there. -/
theorem factOf_new (hnew : New history new) (hmem : row ∈ history)
    (h : factOf (history ++ [new]) row.id = factOf (history ++ [new]) new.id) :
    ∃ prior ∈ history, new.prior = some prior.id ∧
      factOf history row.id = factOf history prior.id := by
  rw [factOf_append_of_ne (hnew.id row hmem), factOf_append_self] at h
  obtain ⟨fact, hfact⟩ := exists_factOf hmem
  cases hprior : new.prior with
  | none =>
    rw [hprior, Option.bind_none, Option.getD_none] at h
    obtain ⟨-, named, hnamed, hname⟩ := mem_of_factOf h
    exact absurd hname (hnew.id named hnamed)
  | some prior =>
    rw [hprior, Option.bind_some] at h
    cases hold : factOf history prior with
    | none =>
      rw [hold, Option.getD_none] at h
      obtain ⟨-, named, hnamed, hname⟩ := mem_of_factOf h
      exact absurd hname (hnew.id named hnamed)
    | some fact' =>
      rw [hold, Option.getD_some] at h
      obtain ⟨⟨named, hnamed, hid⟩, -⟩ := mem_of_factOf hold
      exact ⟨named, hnamed, congrArg some hid.symm, by rw [h, hid, hold]⟩

theorem last_append (hnew : New history new) : Last (history ++ [new]) row ↔
    (Last history row ∧ new.prior ≠ some row.id) ∨
      (row = new ∧ new.contentPackageRevision.isSome) := by
  constructor
  · rintro ⟨hmem, hknown, hprior⟩
    rcases List.mem_append.mp hmem with hmem | hmem
    · exact .inl ⟨⟨hmem, hknown, fun other h => hprior other (List.mem_append_left _ h)⟩,
        hprior new (List.mem_append_right _ (List.mem_singleton_self _))⟩
    · obtain rfl := List.mem_singleton.mp hmem
      exact .inr ⟨rfl, hknown⟩
  · rintro (⟨⟨hmem, hknown, hprior⟩, hnot⟩ | ⟨rfl, hknown⟩)
    · refine ⟨List.mem_append_left _ hmem, hknown, fun other h => ?_⟩
      rcases List.mem_append.mp h with h | h
      · exact hprior other h
      · exact List.mem_singleton.mp h ▸ hnot
    · refine ⟨List.mem_append_right _ (List.mem_singleton_self _), hknown, fun other h => ?_⟩
      rcases List.mem_append.mp h with h | h
      · exact hnew.prior other h
      · exact List.mem_singleton.mp h ▸ hnew.self

/-- **One more row leaves one last row a fact**, where the row it supersedes may be. -/
theorem oneLast_append (hnew : New history new) (h : OneLast history)
    (hopen : ∀ prior ∈ history, new.prior = some prior.id → Open history prior = true) :
    OneLast (history ++ [new]) := by
  have hother : ∀ row, Last history row → new.prior ≠ some row.id →
      factOf (history ++ [new]) row.id ≠ factOf (history ++ [new]) new.id := by
    intro row hrow hnot hfact
    obtain ⟨prior, hmem, hprior, hsame⟩ := factOf_new hnew hrow.mem hfact
    obtain ⟨hnone, hknown⟩ := of_decide_eq_true (hopen prior hmem hprior)
    rcases hknown with hknown | hunknown
    · have hlast : Last history prior :=
        ⟨hmem, hknown, fun other h => of_decide_eq_true (List.all_eq_true.mp hnone other h)⟩
      obtain rfl := h row prior hrow hlast hsame
      exact hnot hprior
    · rcases of_decide_eq_true (List.all_eq_true.mp hunknown row hrow.mem) with hne | hrevision
      · exact hne hsame
      · have hsome := hrow.known
        rw [hrevision] at hsome
        cases hsome
  intro a b ha hb hfact
  rcases (last_append hnew).mp ha with ⟨hina, hnota⟩ | ⟨rfl, -⟩
  · rcases (last_append hnew).mp hb with ⟨hinb, -⟩ | ⟨rfl, -⟩
    · rw [factOf_append_of_ne (hnew.id a hina.mem), factOf_append_of_ne (hnew.id b hinb.mem)] at hfact
      exact h a b hina hinb hfact
    · exact absurd hfact (hother a hina hnota)
  · rcases (last_append hnew).mp hb with ⟨hinb, hnotb⟩ | ⟨rfl, -⟩
    · exact absurd hfact.symm (hother b hinb hnotb)
    · rfl

/-- What is active is last. -/
theorem OneLast.oneActive (h : OneLast history) : OneActive history := by
  have hlast : ∀ row ∈ projectActiveResultSignals history, Last history row := by
    intro row hrow
    obtain ⟨hmem, hcurrent, hprior⟩ := mem_active.mp hrow
    exact ⟨hmem, (of_decide_eq_true hcurrent).1, hprior⟩
  exact fun a ha b hb => h a b (hlast a ha) (hlast b hb)

/-- **One more row leaves withdrawn what was.** -/
theorem withdrawnForGood_append (hnew : New history new) (hone : OneActive history)
    (h : WithdrawnForGood history) : WithdrawnForGood (history ++ [new]) := by
  intro before row after hsplit hwithdrawn hactive hlater active hmem hfact
  have hcurrent : new.statusOrActive = .withdrawn → ¬ new.current = true := fun hstatus hnow =>
    (of_decide_eq_true hnow).2.1 hstatus
  rcases List.eq_nil_or_concat after with rfl | ⟨after, last, rfl⟩
  · -- the new row is the withdrawal, of a row that was the only active one of its fact
    obtain ⟨rfl, hnew'⟩ := List.append_inj' hsplit rfl
    obtain rfl := (List.cons.inj hnew').1
    obtain ⟨prior, hprior, hname⟩ := hactive
    rcases (active_append hnew).mp hmem with ⟨hmem, hnot⟩ | ⟨-, hnow⟩
    · obtain ⟨named, hnamed, hname', hsame⟩ := factOf_new hnew (mem_active.mp hmem).1 hfact
      rw [hname] at hname'
      rw [← Option.some.inj hname'] at hsame
      rw [hone active hmem prior hprior hsame] at hnot
      exact hnot hname
    · exact hcurrent hwithdrawn hnow
  · rw [List.concat_eq_append, ← List.cons_append, ← List.append_assoc] at hsplit
    obtain ⟨rfl, hlast⟩ := List.append_inj' hsplit rfl
    obtain rfl := (List.cons.inj hlast).1
    have hold : ∀ {old : ContentPackageResultSignal}, old ∈ before ++ row :: after →
        factOf (before ++ row :: after ++ [new]) old.id = factOf (before ++ row :: after) old.id :=
      fun hmem => factOf_append_of_ne (hnew.id _ hmem)
    have hrow : row ∈ before ++ row :: after := by simp
    rcases (active_append hnew).mp hmem with ⟨hmem, -⟩ | ⟨rfl, hnow⟩
    · refine h before row after rfl hwithdrawn hactive (fun later hmem' hsame => ?_) active hmem ?_
      · have hmem'' : later ∈ before ++ row :: after :=
          List.mem_append_right _ (List.mem_cons_of_mem _ hmem')
        refine hlater later ?_ ?_
        · rw [List.concat_eq_append]
          exact List.mem_append_left _ hmem'
        · rw [hold hmem'', hold hrow, hsame]
      · rw [← hold (mem_active.mp hmem).1, ← hold hrow, hfact]
    · refine hcurrent (hlater active ?_ hfact) hnow
      rw [List.concat_eq_append]
      exact List.mem_append_right _ (List.mem_singleton_self _)

end Facts

/-! ## Answers -/

section Answers

variable {host : Host} {contentPackage answered : DeliveredPackage} {call : ResultSignalCall}
  {duplicate : ContentPackageResultSignal}

theorem answerDuplicate_eq_ok
    (h : answerDuplicate contentPackage duplicate call = .ok answered) :
    answered = contentPackage := by
  rw [answerDuplicate] at h
  split at h
  · exact nomatch h
  · split at h
    · exact nomatch h
    · exact (Except.ok.inj h).symm

/-- A call is answered with the package as it stands, for a row it would write again. -/
def Replays (contentPackage : DeliveredPackage) (call : ResultSignalCall) : Bool :=
  (duplicateOf contentPackage call).any fun duplicate =>
    (answerDuplicate contentPackage duplicate call).isOk

/-- **What a first look answers.** -/
theorem firstLook_cases (h : firstLook host contentPackage call = .ok (some answered)) :
    answered = contentPackage ∧ assertResultSignalCall host contentPackage call = .ok () ∧
      Replays contentPackage call = true := by
  rw [firstLook, Effect.bind_eq_ok] at h
  obtain ⟨_, hasserted, h⟩ := h
  cases hduplicate : duplicateOf contentPackage call with
  | none =>
    rw [hduplicate] at h
    exact nomatch h
  | some duplicate =>
    rw [hduplicate] at h
    obtain ⟨answer, hanswer, hsome⟩ := Effect.map_eq_ok.mp h
    obtain rfl := Option.some.inj hsome
    refine ⟨answerDuplicate_eq_ok hanswer, hasserted, ?_⟩
    rw [Replays, hduplicate, Option.any_some, hanswer]
    rfl

theorem asserted_of_firstLook {answer : Option DeliveredPackage}
    (h : firstLook host contentPackage call = .ok answer) :
    assertResultSignalCall host contentPackage call = .ok () := by
  rw [firstLook, Effect.bind_eq_ok] at h
  obtain ⟨_, hasserted, -⟩ := h
  exact hasserted

/-- A correction and a withdrawal name a row. -/
theorem named_of_asserted (h : assertResultSignalCall host contentPackage call = .ok ())
    (haction : call.actionOrRecord ≠ .record) :
    truthy call.supersedesSignalId = call.supersedesSignalId := by
  simp only [assertResultSignalCall, Effect.guard_eq_ok] at h
  obtain ⟨-, -, -, hnamed, -⟩ := h
  cases hprior : truthy call.supersedesSignalId with
  | none => exact absurd ⟨haction, hprior⟩ hnamed
  | some prior => exact (Option.filter_eq_some_iff.mp hprior).1.symm

/-- **What a call does under the lock**: it is answered for a row it would write again, or it writes
one at the revision it expects. -/
theorem lockedWrite_cases {current : DeliveredPackage}
    {written : Option ContentPackageResultSignal}
    (h : lockedWrite current call = .ok (answered, written)) :
    (written = none ∧ answered = current ∧ Replays current call = true) ∨
      (written = some (call.signal current.revision) ∧ duplicateOf current call = none ∧
        current.revision = call.expectedRevision ∧
        answered = { current with
          resultSignals := current.resultSignals ++ [call.signal current.revision]
          revision := current.revision + 1
          updatedAt := call.recordedAt }) := by
  rw [lockedWrite] at h
  split at h
  · exact nomatch h
  · cases hduplicate : duplicateOf current call with
    | some duplicate =>
      rw [hduplicate] at h
      obtain ⟨answer, hanswer, hpair⟩ := Effect.map_eq_ok.mp h
      obtain ⟨rfl, rfl⟩ := Prod.mk.inj hpair
      refine .inl ⟨rfl, answerDuplicate_eq_ok hanswer, ?_⟩
      rw [Replays, hduplicate, Option.any_some, hanswer]
      rfl
    | none =>
      rw [hduplicate] at h
      dsimp only at h
      split at h
      · exact nomatch h
      · next hrevision =>
        obtain ⟨rfl, rfl⟩ := Prod.mk.inj (Except.ok.inj h)
        exact .inr ⟨rfl, rfl, not_not.mp hrevision, rfl⟩

/-- **A row a record call is answered for** carries its signal, at its instant: the payload fixes
the kind and the source, and what is left of the key is the instant. -/
theorem carries_of_replays (hrecord : call.actionOrRecord = .record)
    (hduplicate : duplicateOf contentPackage call = some duplicate)
    (hok : answerDuplicate contentPackage duplicate call = .ok answered) :
    duplicate.contentPackageRevision.isSome ∧ duplicate.statusOrActive ≠ .withdrawn ∧
      duplicate.kind.outcomeSignal = call.kind.outcomeSignal ∧
      duplicate.occurredAt = call.observedAt := by
  have hmatch := List.find?_some hduplicate
  rw [resultSignalMatchesWriteIdentity, if_pos hrecord] at hmatch
  obtain ⟨hstatus, hknown, hkey⟩ := of_decide_eq_true hmatch
  have hpayload : resultSignalPayloadMatches duplicate call.toResultSignalInput = true := by
    by_contra hnot
    rw [answerDuplicate] at hok
    split at hok <;> cases hok
  obtain ⟨hkind, -, -, hsource, -⟩ := of_decide_eq_true hpayload
  refine ⟨hknown, hstatus, congrArg _ hkind, ?_⟩
  have hpart : ∀ text : Option String, (truthy (text.map Text.trim)).getD "_" =
      (truthy (some (Text.trim (text.getD "")))).getD "_" := by
    rintro (_ | text)
    · decide
    · rfl
  rw [buildOutcomeEvidenceIdempotencyKey, buildOutcomeEvidenceIdempotencyKey, hpart, hpart, hsource,
    hkind] at hkey
  have hlist := congrArg String.toList hkey
  simp only [String.toList_intercalate, List.map_cons, List.map_nil] at hlist
  exact String.toList_inj.mp (by simpa [List.intercalate] using hlist)

theorem truthy_map_trim (text : Option String) :
    truthy ((truthy text).map Text.trim) = truthy (text.map Text.trim) := by
  cases text with
  | none => rfl
  | some text =>
    by_cases hempty : text = ""
    · subst hempty
      decide
    · simp [truthy, Option.filter, hempty]

/-- **A row answers for the call that wrote it.** -/
theorem matches_signal {packageId : String}
    (hnamed : call.actionOrRecord ≠ .record →
      truthy call.supersedesSignalId = call.supersedesSignalId) :
    resultSignalMatchesWriteIdentity (call.signal call.expectedRevision) call packageId = true := by
  rw [resultSignalMatchesWriteIdentity]
  split
  · next hrecord =>
    have hactive : (call.signal call.expectedRevision).statusOrActive = .active := by
      simp [ResultSignalCall.signal, ContentPackageResultSignal.statusOrActive, hrecord]
    have hkey : buildOutcomeEvidenceIdempotencyKey packageId "_" call.kind.outcomeSignal
        call.observedAt (truthy call.sourceRef) = buildOutcomeEvidenceIdempotencyKey packageId "_"
          call.kind.outcomeSignal call.observedAt call.sourceRef := by
      rw [buildOutcomeEvidenceIdempotencyKey, buildOutcomeEvidenceIdempotencyKey,
        truthy_map_trim]
    refine decide_eq_true ⟨?_, rfl, hkey⟩
    rw [hactive]
    exact nofun
  · next hother =>
    refine decide_eq_true ⟨rfl, hnamed hother, ?_⟩
    simp only [ResultSignalCall.signal, ContentPackageResultSignal.statusOrActive,
      Option.getD_some]
    by_cases hwithdraw : call.actionOrRecord = .withdraw
    · simp [hwithdraw]
    · simp [hwithdraw]

end Answers

/-! ## Outcomes are corrected -/

section Laws

variable (host : Host)

def ResultSignalCall.row? : Except ContentPackageDeliveryError
    (DeliveredPackage × Option ContentPackageResultSignal) → Option ContentPackageResultSignal
  | .ok (_, row) => row
  | .error _ => none

/-- The row a call wrote. -/
def ResultSignalOutcome.row (outcome : ResultSignalOutcome) : Option ContentPackageResultSignal :=
  ResultSignalCall.row? outcome.answer

def ResultSignalOutcome.Returned (outcome : ResultSignalOutcome) : Prop :=
  ∃ answer, outcome.answer = .ok answer

/-- The rows written, in their order. -/
def ResultSignalState.written (s : ResultSignalState) : List ContentPackageResultSignal :=
  s.outcomes.filterMap ResultSignalOutcome.row

/-- A call is that of an earlier one again: its arguments and its instant are the same. -/
def ResultSignalCall.Repeats (call earlier : ResultSignalCall) : Prop :=
  call.toResultSignalInput = earlier.toResultSignalInput ∧ call.observedAt = earlier.observedAt

/-- A row that carries the signal of a call, at its instant. -/
def ContentPackageResultSignal.carries (row : ContentPackageResultSignal)
    (call : ResultSignalCall) : Bool :=
  row.kind.outcomeSignal = call.kind.outcomeSignal ∧ row.occurredAt = call.observedAt

/-- **Outcomes are corrected, not multiplied.** -/
structure OutcomesHold (start : DeliveredPackage) (s : ResultSignalState) : Prop where
  /-- rows are only appended -/
  appended : s.package.resultSignals = start.resultSignals ++ s.written
  /-- each is bound to the revision it consumed -/
  bound : s.written.map (·.contentPackageRevision) =
    (List.range s.written.length).map fun i : Nat => some (start.revision + (i : Int))
  /-- a call that succeeded writes nothing when it is repeated -/
  repeated : s.outcomes.Pairwise fun earlier outcome => earlier.Returned →
    outcome.call.Repeats earlier.call → outcome.row = none
  /-- a fact has one active row at most -/
  one : OneActive s.package.resultSignals
  /-- and none once that was withdrawn, and not corrected since -/
  withdrawn : WithdrawnForGood s.package.resultSignals
  /-- a record call that returns leaves an active row of its signal and instant -/
  recorded : ∀ outcome ∈ s.outcomes, outcome.call.actionOrRecord = .record →
    ∀ answered row, outcome.answer = .ok (answered, row) →
      ∃ active ∈ projectActiveResultSignals answered.resultSignals,
        active.carries outcome.call = true

/-- The ids of rows are new when they are given. -/
def Unused (s : ResultSignalState) : ResultSignalMove → Prop
  | .write call =>
    (∀ row ∈ s.package.resultSignals, row.id ≠ call.signalId ∧ row.prior ≠ some call.signalId) ∧
      truthy call.supersedesSignalId ≠ some call.signalId
  | _ => True

/-- The row a record call is answered for is superseded by none. -/
def Upheld (contentPackage : DeliveredPackage) (call : ResultSignalCall) : Bool :=
  call.actionOrRecord ≠ .record ∨ (duplicateOf contentPackage call).all fun duplicate =>
    ¬ (answerDuplicate contentPackage duplicate call).isOk ∨
      contentPackage.resultSignals.all fun row => row.prior ≠ some duplicate.id

/-- A call that appends a row names none that another row supersedes, nor one of an unknown revision
beside rows of a known one. -/
def Unforked (contentPackage : DeliveredPackage) (call : ResultSignalCall) : Bool :=
  (duplicateOf contentPackage call).isSome ∨ contentPackage.revision ≠ call.expectedRevision ∨
    contentPackage.resultSignals.all fun prior =>
      truthy call.supersedesSignalId ≠ some prior.id ∨ Open contentPackage.resultSignals prior

/-- **A step that leaves the outcomes single.** -/
def Single (s : ResultSignalState) : ResultSignalMove → Bool
  | .look call =>
    ¬ (assertResultSignalCall host s.package call).isOk ∨ Upheld s.package call
  | .compare _ => true
  | .write call => call ∉ s.compared ∨ (Upheld s.package call ∧ Unforked s.package call)

end Laws

section Runs

variable {host : Host} {start : DeliveredPackage} {s : ResultSignalState}

/-- What holds of the package and the calls on their way. -/
structure ResultSignalInvariant (start : DeliveredPackage) (s : ResultSignalState) : Prop
    extends OutcomesHold start s where
  package : s.package.id = start.id
  revision : s.package.revision = start.revision + s.written.length
  ids : (s.package.resultSignals.map (·.id)).Nodup
  last : OneLast s.package.resultSignals
  plain : ∀ row ∈ s.package.resultSignals, row.contentPackageRevision.isSome →
    row.statusOrActive ≠ .superseded
  named : ∀ call, call ∈ s.looked ∨ call ∈ s.compared → call.actionOrRecord ≠ .record →
    truthy call.supersedesSignalId = call.supersedesSignalId
  kept : ∀ outcome ∈ s.outcomes, outcome.Returned → ∃ row ∈ s.package.resultSignals,
    resultSignalMatchesWriteIdentity row outcome.call start.id = true

variable {call : ResultSignalCall}

theorem written_ended
    {answer : Except ContentPackageDeliveryError (DeliveredPackage × Option ContentPackageResultSignal)} :
    (s.ended call answer).written = s.written ++ (ResultSignalCall.row? answer).toList := by
  rw [ResultSignalState.written, ResultSignalState.ended, List.filterMap_append,
    ResultSignalState.written]
  cases h : ResultSignalCall.row? answer with
  | none => simp [ResultSignalOutcome.row, h]
  | some row => simp [ResultSignalOutcome.row, h]

theorem matches_of_repeats {row : ContentPackageResultSignal} {earlier : ResultSignalCall}
    {packageId : String} (h : call.Repeats earlier) :
    resultSignalMatchesWriteIdentity row call packageId =
      resultSignalMatchesWriteIdentity row earlier packageId := by
  obtain ⟨hinput, hinstant⟩ := h
  have haction : call.actionOrRecord = earlier.actionOrRecord :=
    congrArg (fun input : ResultSignalInput => input.action.getD .record) hinput
  have hkind := congrArg ResultSignalInput.kind hinput
  have hsource := congrArg ResultSignalInput.sourceRef hinput
  have hrevision := congrArg ResultSignalInput.expectedRevision hinput
  have hprior := congrArg ResultSignalInput.supersedesSignalId hinput
  rw [resultSignalMatchesWriteIdentity, resultSignalMatchesWriteIdentity, haction, hkind, hsource,
    hrevision, hprior, hinstant]

/-- **An answer that writes nothing keeps what holds.** -/
theorem invariant_ended (h : ResultSignalInvariant start s)
    {answer : Except ContentPackageDeliveryError (DeliveredPackage × Option ContentPackageResultSignal)}
    (hrow : ResultSignalCall.row? answer = none)
    (hkept : (∃ returned, answer = .ok returned) → ∃ row ∈ s.package.resultSignals,
      resultSignalMatchesWriteIdentity row call start.id = true)
    (hrecorded : call.actionOrRecord = .record → ∀ answered row, answer = .ok (answered, row) →
      ∃ active ∈ projectActiveResultSignals answered.resultSignals,
        active.carries call = true) : ResultSignalInvariant start (s.ended call answer) := by
  have hwritten : (s.ended call answer).written = s.written := by
    rw [written_ended, hrow]
    exact List.append_nil _
  refine
    { appended := ?_
      bound := ?_
      repeated := ?_
      one := h.one
      withdrawn := h.withdrawn
      recorded := List.forall_mem_append.mpr ⟨h.recorded, List.forall_mem_singleton.mpr hrecorded⟩
      package := h.package
      revision := ?_
      ids := h.ids
      last := h.last
      plain := h.plain
      named := h.named
      kept := List.forall_mem_append.mpr ⟨h.kept, List.forall_mem_singleton.mpr hkept⟩ }
  · rw [hwritten]
    exact h.appended
  · rw [hwritten]
    exact h.bound
  · refine List.pairwise_append.mpr ⟨h.repeated, List.pairwise_singleton _ _, ?_⟩
    intro earlier _ outcome hmem _ _
    rw [List.mem_singleton.mp hmem]
    exact hrow
  · rw [hwritten]
    exact h.revision

theorem row_of_replays {contentPackage : DeliveredPackage} (h : Replays contentPackage call = true) :
    ∃ row ∈ contentPackage.resultSignals,
      resultSignalMatchesWriteIdentity row call contentPackage.id = true := by
  cases hduplicate : duplicateOf contentPackage call with
  | none =>
    rw [Replays, hduplicate] at h
    exact nomatch h
  | some duplicate =>
    rw [duplicateOf] at hduplicate
    have hmatch := List.find?_some hduplicate
    exact ⟨duplicate, List.mem_of_find?_eq_some hduplicate, hmatch⟩

/-- A call that is answered for a row written before keeps what holds. -/
theorem invariant_replayed (h : ResultSignalInvariant start s)
    (hreplays : Replays s.package call = true) (hupheld : Upheld s.package call = true) :
    ResultSignalInvariant start (s.ended call (.ok (s.package, none))) := by
  refine invariant_ended h rfl (fun _ => ?_) fun hrecord answered row hanswer => ?_
  · rw [← h.package]
    exact row_of_replays hreplays
  · obtain ⟨rfl, -⟩ := Prod.mk.inj (Except.ok.inj hanswer)
    obtain ⟨duplicate, hduplicate, hanswered⟩ := Option.any_eq_true _ _ |>.mp hreplays
    obtain ⟨answer, hok⟩ : ∃ answer, answerDuplicate s.package duplicate call = .ok answer := by
      rcases hanswer : answerDuplicate s.package duplicate call with e | answer
      · rw [hanswer] at hanswered
        cases hanswered
      · exact ⟨answer, rfl⟩
    have hdup : duplicateOf s.package call = some duplicate := hduplicate
    have hrow := List.mem_of_find?_eq_some hdup
    obtain ⟨hknown, hstatus, hcarries⟩ := carries_of_replays hrecord hdup hok
    refine ⟨duplicate, mem_active.mpr ⟨hrow, decide_eq_true ⟨hknown, hstatus,
      h.plain duplicate hrow hknown⟩, fun other hother => ?_⟩, decide_eq_true hcarries⟩
    have hall := (of_decide_eq_true hupheld).resolve_left (not_not.mpr hrecord)
    rw [hdup, Option.all_some] at hall
    exact of_decide_eq_true (List.all_eq_true.mp
      ((of_decide_eq_true hall).resolve_left (not_not.mpr hanswered)) other hother)

/-- What a record call writes says something, and carries its signal. -/
theorem signal_of_record {revision : Int} (hrecord : call.actionOrRecord = .record) :
    (call.signal revision).current = true ∧ (call.signal revision).carries call = true := by
  refine ⟨?_, decide_eq_true ⟨rfl, rfl⟩⟩
  simp [ContentPackageResultSignal.current, ResultSignalCall.signal,
    ContentPackageResultSignal.statusOrActive, hrecord]

/-- No row is written as superseded. -/
theorem signal_ne_superseded (call : ResultSignalCall) (revision : Int) :
    (call.signal revision).statusOrActive ≠ .superseded := by
  rw [ResultSignalCall.signal, ContentPackageResultSignal.statusOrActive, Option.getD_some]
  split <;> decide

theorem signal_prior (call : ResultSignalCall) (revision : Int) :
    (call.signal revision).prior = truthy call.supersedesSignalId := truthy_truthy _

/-- The row of a call of an unused id is new. -/
theorem new_signal (hunused : Unused s (.write call)) (revision : Int) :
    New s.package.resultSignals (call.signal revision) :=
  ⟨fun row hrow => (hunused.1 row hrow).1, fun row hrow => (hunused.1 row hrow).2,
    signal_prior call revision ▸ hunused.2⟩

/-- **A row appended where no row is superseded twice** leaves one last row a fact. -/
theorem oneLast_signal (h : ResultSignalInvariant start s) (hunused : Unused s (.write call))
    (hnone : duplicateOf s.package call = none)
    (hrevision : s.package.revision = call.expectedRevision)
    (hunforked : Unforked s.package call = true) :
    OneLast (s.package.resultSignals ++ [call.signal s.package.revision]) := by
  refine oneLast_append (new_signal hunused _) h.last fun prior hmem hname => ?_
  rcases of_decide_eq_true hunforked with hsome | hother | hall
  · rw [hnone] at hsome
    cases hsome
  · exact absurd hrevision hother
  · exact (of_decide_eq_true (List.all_eq_true.mp hall prior hmem)).resolve_left
      fun hne => hne (signal_prior call _ ▸ hname)

/-- A call that no row answers is no repetition. -/
theorem repeated_of_none (h : ResultSignalInvariant start s)
    (hnone : duplicateOf s.package call = none)
    {answer : Except ContentPackageDeliveryError (DeliveredPackage × Option ContentPackageResultSignal)}
    {package' : DeliveredPackage} :
    ({ s with package := package' }.ended call answer).outcomes.Pairwise
      fun earlier outcome : ResultSignalOutcome =>
        earlier.Returned → outcome.call.Repeats earlier.call → outcome.row = none := by
  refine List.pairwise_append.mpr ⟨h.repeated, List.pairwise_singleton _ _, ?_⟩
  intro earlier hearlier outcome hmem hreturned hrepeats
  rw [List.mem_singleton.mp hmem] at hrepeats
  -- the earlier call has a row, which this one would have found
  obtain ⟨row, hrow, hmatch⟩ := h.kept earlier hearlier hreturned
  rw [← matches_of_repeats hrepeats, ← h.package] at hmatch
  exact absurd hmatch (List.find?_eq_none.mp hnone row hrow)

/-- A call that writes a row at the revision it expects keeps what holds. -/
theorem invariant_written (h : ResultSignalInvariant start s)
    (hnamed : call.actionOrRecord ≠ .record →
      truthy call.supersedesSignalId = call.supersedesSignalId) (hunused : Unused s (.write call))
    (hnone : duplicateOf s.package call = none)
    (hrevision : s.package.revision = call.expectedRevision)
    (hunforked : Unforked s.package call = true) {package' : DeliveredPackage}
    (hid : package'.id = s.package.id) (hrevision' : package'.revision = s.package.revision + 1)
    (hsignals : package'.resultSignals =
      s.package.resultSignals ++ [call.signal s.package.revision]) :
    ResultSignalInvariant start ({ s with package := package' }.ended call
      (.ok (package', some (call.signal s.package.revision)))) := by
  have hnew := new_signal hunused s.package.revision
  have hlast := oneLast_signal h hunused hnone hrevision hunforked
  set signal := call.signal s.package.revision with hsignal
  have hwritten : ({ s with package := package' }.ended call
      (.ok (package', some signal))).written = s.written ++ [signal] := written_ended
  have hmatches : resultSignalMatchesWriteIdentity signal call start.id = true := by
    rw [hsignal, hrevision]
    exact matches_signal hnamed
  have hmem : signal ∈ package'.resultSignals :=
    hsignals ▸ List.mem_append_right _ (List.mem_singleton_self _)
  refine
    { appended := ?_
      bound := ?_
      repeated := repeated_of_none h hnone
      one := hsignals ▸ hlast.oneActive
      withdrawn := hsignals ▸ withdrawnForGood_append hnew h.one h.withdrawn
      recorded := List.forall_mem_append.mpr ⟨h.recorded, List.forall_mem_singleton.mpr ?_⟩
      package := hid.trans h.package
      revision := ?_
      ids := hsignals ▸ hnew.ids h.ids
      last := hsignals ▸ hlast
      plain := ?_
      named := h.named
      kept := List.forall_mem_append.mpr ⟨fun outcome houtcome hreturned => ?_,
        List.forall_mem_singleton.mpr fun _ => ⟨signal, hmem, hmatches⟩⟩ }
  · rw [hwritten, ← List.append_assoc, ← h.appended]
    exact hsignals
  · rw [hwritten, List.map_append, h.bound, List.length_append, List.length_singleton,
      List.range_succ, List.map_append, List.map_singleton, List.map_singleton, ← h.revision]
    rfl
  · intro hrecord answered row hanswer
    obtain ⟨rfl, -⟩ := Prod.mk.inj (Except.ok.inj hanswer)
    obtain ⟨hcurrent, hcarries⟩ := signal_of_record hrecord
    exact ⟨signal, hsignals ▸ (active_append hnew).mpr (.inr ⟨rfl, hcurrent⟩), hcarries⟩
  · rw [hwritten, List.length_append, List.length_singleton]
    have := h.revision
    have hrev : package'.revision = s.package.revision + 1 := hrevision'
    change package'.revision = _
    push_cast
    omega
  · intro row hrow hknown
    have hrow : row ∈ package'.resultSignals := hrow
    rw [hsignals] at hrow
    rcases List.mem_append.mp hrow with hrow | hrow
    · exact h.plain row hrow hknown
    · exact List.mem_singleton.mp hrow ▸ signal_ne_superseded call _
  · obtain ⟨row, hrow, hmatch⟩ := h.kept outcome houtcome hreturned
    exact ⟨row, hsignals ▸ List.mem_append_left _ hrow, hmatch⟩

/-- The calls on their way are others, each of which has been asked. -/
theorem invariant_passing (h : ResultSignalInvariant start s)
    {looked compared : List ResultSignalCall}
    (hnamed : ∀ call, call ∈ looked ∨ call ∈ compared → call.actionOrRecord ≠ .record →
      truthy call.supersedesSignalId = call.supersedesSignalId) :
    ResultSignalInvariant start { s with looked, compared } :=
  { h with named := hnamed }

/-- **One step keeps what holds.** -/
theorem invariant_step (h : ResultSignalInvariant start s) (move : ResultSignalMove)
    (hunused : Unused s move) (hsingle : Single host s move = true) :
    ResultSignalInvariant start (s.step host move) := by
  have hfail : ∀ {s : ResultSignalState}, ResultSignalInvariant start s → ∀ call e,
      ResultSignalInvariant start (s.ended call (.error e)) := fun h call e =>
    invariant_ended h rfl (fun ⟨_, hanswer⟩ => nomatch hanswer) fun _ _ _ hanswer => nomatch hanswer
  cases move with
  | look call =>
    rw [ResultSignalState.step]
    cases hlook : firstLook host s.package call with
    | error e => exact hfail h call e
    | ok answer =>
      have hasserted := asserted_of_firstLook hlook
      cases answer with
      | none =>
        refine invariant_passing h fun other hother haction => ?_
        rcases hother with hother | hother
        · rcases List.mem_cons.mp hother with rfl | hother
          · exact named_of_asserted hasserted haction
          · exact h.named other (.inl hother) haction
        · exact h.named other (.inr hother) haction
      | some contentPackage =>
        obtain ⟨rfl, -, hreplays⟩ := firstLook_cases hlook
        refine invariant_replayed h hreplays ?_
        refine (of_decide_eq_true hsingle).resolve_left fun hnot => hnot ?_
        rw [hasserted]
        rfl
  | compare call =>
    rw [ResultSignalState.step]
    split
    · next hmem =>
      have herase : ∀ other, other ∈ s.looked.erase call → other ∈ s.looked := fun _ =>
        List.mem_of_mem_erase
      split
      · refine hfail (invariant_passing h fun other hother => h.named other ?_) call _
        exact hother.imp_left (herase other)
      · refine invariant_passing h fun other hother => h.named other ?_
        rcases hother with hother | hother
        · exact .inl (herase other hother)
        · rcases List.mem_cons.mp hother with rfl | hother
          · exact .inl hmem
          · exact .inr hother
    · exact h
  | write call =>
    rw [ResultSignalState.step]
    split
    · next hmem =>
      have h' : ResultSignalInvariant start { s with compared := s.compared.erase call } :=
        invariant_passing h fun other hother =>
          h.named other (hother.imp_right List.mem_of_mem_erase)
      obtain ⟨hupheld, hunforked⟩ := (of_decide_eq_true hsingle).resolve_left fun hnot => hnot hmem
      dsimp only
      cases hwrite : lockedWrite s.package call with
      | error e => exact hfail h' call e
      | ok answer =>
        obtain ⟨answered, written⟩ := answer
        rcases lockedWrite_cases hwrite with ⟨rfl, rfl, hreplays⟩ | ⟨rfl, hnone, hrevision, rfl⟩
        · exact invariant_replayed h' hreplays hupheld
        · exact invariant_written h' (h.named call (.inr hmem)) hunused hnone hrevision hunforked
            rfl rfl rfl
    · exact h

/-- **Outcomes are corrected and not multiplied in every run** whose steps leave them single. -/
theorem outcomesHold (host : Host) (start : DeliveredPackage)
    (hids : (start.resultSignals.map (·.id)).Nodup)
    (hunknown : ∀ row ∈ start.resultSignals, row.contentPackageRevision = none)
    (moves : List ResultSignalMove)
    (hunused : Effect.Admits (ResultSignalState.step host) Unused moves { package := start })
    (hsingle : Effect.Admits (ResultSignalState.step host) (fun s move => Single host s move = true)
      moves { package := start }) :
    OutcomesHold start
      (Effect.runAll (ResultSignalState.step host) moves { package := start }) := by
  have hinactive : ∀ row, row ∉ projectActiveResultSignals start.resultSignals := by
    intro row hrow
    obtain ⟨hmem, hcurrent, -⟩ := mem_active.mp hrow
    have hsome := (of_decide_eq_true hcurrent).1
    rw [hunknown row hmem] at hsome
    exact nomatch hsome
  have hnolast : ∀ row, ¬ Last start.resultSignals row := by
    rintro row ⟨hmem, hknown, -⟩
    rw [hunknown row hmem] at hknown
    cases hknown
  have hinit : ResultSignalInvariant start { package := start } := by
    refine
      { appended := (List.append_nil _).symm
        bound := rfl
        repeated := .nil
        one := fun a ha => absurd ha (hinactive a)
        withdrawn := fun _ _ _ _ _ _ _ active hactive => absurd hactive (hinactive active)
        recorded := fun _ hmem => absurd hmem List.not_mem_nil
        package := rfl
        revision := (add_zero _).symm
        ids := hids
        last := fun a b ha => absurd ha (hnolast a)
        plain := fun row hrow hknown => absurd hknown (by rw [hunknown row hrow]; decide)
        named := fun _ hmem => (hmem.elim List.not_mem_nil List.not_mem_nil).elim
        kept := fun _ hmem => absurd hmem List.not_mem_nil }
  have hrun := Effect.runAll_induct (ResultSignalInvariant start)
    (fun s move hinv hok => invariant_step hinv move hok.1 hok.2) moves hinit
    (hunused.and hsingle)
  exact hrun.toOutcomesHold

end Runs

/-! ## Concrete outcomes -/

section Concrete

instance (s : ResultSignalState) : (move : ResultSignalMove) → Decidable (Unused s move)
  | .look _ => .isTrue trivial
  | .compare _ => .isTrue trivial
  | .write call => inferInstanceAs (Decidable
      ((∀ row ∈ s.package.resultSignals, row.id ≠ call.signalId ∧ row.prior ≠ some call.signalId) ∧
        truthy call.supersedesSignalId ≠ some call.signalId))

/-- A package that was published by hand. -/
def publishedPackage : DeliveredPackage where
  id := "package"
  revision := 2
  deliveryEvents := [{ type := .manual_publish_result, status := some .published }]
  resultSignals := []
  updatedAt := "2026-07-17T09:00:00.000Z"

/-- An inquiry. -/
def inquiryCall : ResultSignalCall where
  expectedRevision := 2
  kind := .inquiry
  occurredAt := some "2026-07-17T10:00:00.000Z"
  userId := "owner"
  recordedAt := "2026-07-17T12:00:00.000Z"
  signalId := "signal-1"

/-- The customer was in the store, not only asking. -/
def visitCorrection : ResultSignalCall where
  action := some .correct
  expectedRevision := 3
  kind := .store_visit
  occurredAt := some "2026-07-17T11:00:00.000Z"
  supersedesSignalId := some "signal-1"
  userId := "owner"
  recordedAt := "2026-07-17T13:00:00.000Z"
  signalId := "signal-2"

def visitWithdrawal : ResultSignalCall where
  action := some .withdraw
  expectedRevision := 4
  kind := .store_visit
  supersedesSignalId := some "signal-2"
  userId := "owner"
  recordedAt := "2026-07-17T14:00:00.000Z"
  signalId := "signal-3"

/-- A call from its first look to its write. -/
def callMoves (call : ResultSignalCall) : List ResultSignalMove :=
  [.look call, .compare call, .write call]

/-- **An inquiry that is corrected and withdrawn** stays one fact. -/
theorem outcomesHold_withdrawn : OutcomesHold publishedPackage
    (Effect.runAll (ResultSignalState.step isoHost)
      (callMoves inquiryCall ++ callMoves visitCorrection ++ callMoves visitWithdrawal)
        { package := publishedPackage }) := by
  refine outcomesHold isoHost publishedPackage ?_ ?_ _ ?_ ?_
  · exact List.nodup_nil
  · exact fun _ hmem => absurd hmem List.not_mem_nil
  · decide +kernel
  · decide +kernel

/-- A record call that returned left an active row of its signal and instant. -/
def ResultSignalOutcome.leavesActive (outcome : ResultSignalOutcome) : Bool :=
  match outcome.call.actionOrRecord, outcome.answer with
  | .record, .ok (answered, _) =>
    (projectActiveResultSignals answered.resultSignals).any (·.carries outcome.call)
  | _, _ => true

/-- **A call returns and leaves no active row** when it records what was recorded and corrected
before. -/
theorem not_outcomesHold : ¬ OutcomesHold publishedPackage
    (Effect.runAll (ResultSignalState.step isoHost)
      (callMoves inquiryCall ++ callMoves visitCorrection ++ [.look inquiryCall])
        { package := publishedPackage }) := by
  intro h
  have hlost : (Effect.runAll (ResultSignalState.step isoHost)
      (callMoves inquiryCall ++ callMoves visitCorrection ++ [.look inquiryCall])
        { package := publishedPackage }).outcomes.all (·.leavesActive) = false := by decide +kernel
  refine Bool.false_ne_true (hlost.symm.trans (List.all_eq_true.mpr fun outcome hmem => ?_))
  rw [ResultSignalOutcome.leavesActive]
  split
  · next answered row hrecord hanswer =>
    exact List.any_eq_true.mpr (h.recorded outcome hmem hrecord answered row hanswer)
  · rfl

end Concrete

end MeiyeAgent
