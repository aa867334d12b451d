import MeiyeAgent.ProductBilling.MerchantExecution
import MeiyeAgent.ProductBilling.QuoteService

/-!
# ProductBilling/ExecutedOnce — an effect is completed at most once

Workers bind, claim, complete, settle and promote in any order, each at an instant of its own, while
other operations change quotes and usage underneath.

* `Outcome` — what a call answers and saves: nothing over a completed record, and `execute` only
  where nothing is claimed or the lease has run out.
* `claimedOnce_run` — **every run completes an effect once**, replays that result, and lets an
  earlier lease expire before it answers `execute` again.
-/

namespace MeiyeAgent

open Effect

/-- The result an answer returns. -/
def ExecutionAnswer.result? : ExecutionAnswer → Option (Option Json)
  | .replay value => some value
  | .result value => some value
  | _ => none

namespace MerchantExecutionStore

/-! ## What is claimed -/

variable (host : ExecutionHost)

/-- The event is a call on the effect, and answers. -/
def Answers (store : MerchantExecutionStore) (event : ExecutionEvent) (effect : EffectKey)
    (answer : ExecutionAnswer) : Prop :=
  ∃ clock databaseNow call, event = .call clock databaseNow call ∧ call.effect = effect ∧
    result (perform host clock databaseNow call) store = .ok answer

/-- The event answers `execute` on the effect. -/
def Executes (store : MerchantExecutionStore) (effect : EffectKey) (event : ExecutionEvent) :
    Prop := ∃ snapshot, Answers host store event effect (.execute snapshot)

/-- The claims made by the events. -/
def Claimed (events : List ExecutionEvent) (input : ClaimMerchantExecutionInput) : Prop :=
  ∃ clock databaseNow, .call clock databaseNow (.claimMerchantExecution input) ∈ events

/-- **The claim was answered on what it matches**: the reservation of its task, and a record that
carries its contract and key, the input of a claim of that contract, and the lease begun now. -/
structure ExecutesOn (events : List ExecutionEvent) (store store' : MerchantExecutionStore)
    (databaseNow : String) (input : ClaimMerchantExecutionInput)
    (snapshot : MerchantExecutionInputSnapshot) : Prop where
  reservation : merchantExecutionMatchesReservation input
    (store.quotes.get? (input.workspaceId, input.taskId))
    (store.usage.get? (input.workspaceId, input.taskId)) = true
  recorded : ∃ record,
    store'.executions.get? (input.workspaceId, input.taskId, input.effectKey) = some record ∧
      record.status = .claimed ∧ record.contractHash = merchantExecutionContractHash host input ∧
      record.idempotencyKey = input.idempotencyKey ∧ record.inputSnapshot = snapshot ∧
      record.updatedAt = some databaseNow
  bound : ∃ claim, Claimed events claim ∧ merchantExecutionContractHash host claim =
      merchantExecutionContractHash host input ∧
    snapshotFingerprint host snapshot = snapshotFingerprint host claim.inputSnapshot

/-- **Every effect is completed at most once.** -/
structure ClaimedOnce (events : List ExecutionEvent) : Prop where
  /-- A completed record never changes. -/
  kept : ∀ before after effect record, events = before ++ after →
    (runAll (step host) before empty).executions.get? effect = some record →
    record.status = .completed →
      (runAll (step host) events empty).executions.get? effect = some record
  /-- Whatever result is answered is the one that stays completed. -/
  single : ∀ before event after effect answer result, events = before ++ event :: after →
    Answers host (runAll (step host) before empty) event effect answer →
    answer.result? = some result →
      ∃ record, (runAll (step host) events empty).executions.get? effect = some record ∧
        record.status = .completed ∧ record.result = result
  /-- Once completed, a claim of the record's contract and key is answered with its result, and no
  other claim is answered. -/
  replays : ∀ before clock databaseNow input after record,
    events = before ++ .call clock databaseNow (.claimMerchantExecution input) :: after →
    (runAll (step host) before empty).executions.get?
      (input.workspaceId, input.taskId, input.effectKey) = some record →
    record.status = .completed →
      (∀ answer, result (claimMerchantExecution host clock databaseNow input)
          (runAll (step host) before empty) = .ok answer → answer = .replay record.result ∧
        record.contractHash = merchantExecutionContractHash host input ∧
          record.idempotencyKey = input.idempotencyKey) ∧
      (requireWorkspace input.workspaceId = .ok () → checkInputHashes host input = .ok () →
        record.contractHash = merchantExecutionContractHash host input →
        record.idempotencyKey = input.idempotencyKey →
          result (claimMerchantExecution host clock databaseNow input)
            (runAll (step host) before empty) = .ok (.replay record.result))
  /-- `execute` is answered to a claim that matches reservation and record. -/
  executes : ∀ before clock databaseNow input after snapshot,
    events = before ++ .call clock databaseNow (.claimMerchantExecution input) :: after →
    result (claimMerchantExecution host clock databaseNow input)
      (runAll (step host) before empty) = .ok (.execute snapshot) →
        ExecutesOn host events (runAll (step host) before empty)
          (runAll (step host) (before ++ [.call clock databaseNow (.claimMerchantExecution input)])
            empty) databaseNow input snapshot
  /-- Between two `execute` answers the earlier lease has run out, by the later clock. -/
  leases : ∀ before clock databaseNow call between clock' databaseNow' call' after effect,
    events = before ++ .call clock databaseNow call :: (between ++
      .call clock' databaseNow' call' :: after) →
    Executes host (runAll (step host) before empty) effect (.call clock databaseNow call) →
    Admits (step host) (fun store event => ¬ Executes host store effect event) between
      (runAll (step host) (before ++ [.call clock databaseNow call]) empty) →
    Executes host (runAll (step host) (before ++ .call clock databaseNow call :: between) empty)
      effect (.call clock' databaseNow' call') →
        merchantExecutionClaimExpired host (some databaseNow) clock' = true

/-! ## What a call answers and saves -/

variable {host} {store : MerchantExecutionStore} {clock : TimeValue} {databaseNow : String}
  {effect : EffectKey} {record old : MerchantExecutionRecord}

/-- **Every record stands under its own effect.** -/
def Keyed (store : MerchantExecutionStore) : Prop :=
  ∀ effect record, store.executions.get? effect = some record →
    (record.workspaceId, record.taskId, record.effectKey) = effect

/-- What stood in the record's place when it was claimed: nothing, its binding, or a claim of the
same contract whose lease has run out. -/
def ClaimedOver (host : ExecutionHost) (clock : TimeValue) (input : ClaimMerchantExecutionInput)
    (snapshot : MerchantExecutionInputSnapshot) : Option MerchantExecutionRecord → Prop
  | none => snapshot = input.inputSnapshot
  | some old => snapshot = old.inputSnapshot ∧
    (old.status = .bound ∧
        snapshotFingerprint host old.inputSnapshot = snapshotFingerprint host input.inputSnapshot ∨
      old.status = .claimed ∧ old.contractHash = merchantExecutionContractHash host input ∧
        merchantExecutionClaimExpired host old.updatedAt clock = true)

/-- **What a call answers, and the store it leaves.** -/
inductive Outcome (host : ExecutionHost) (clock : TimeValue) (databaseNow : String)
    (store : MerchantExecutionStore) (call : ExecutionCall) :
    ExecutionAnswer → MerchantExecutionStore → Prop
  /-- Nothing is saved; a result is that of the completed record. -/
  | kept {answer : ExecutionAnswer} (hanswer : ∀ snapshot, answer ≠ .execute snapshot)
      (hresult : ∀ result, answer.result? = some result →
        ∃ record, store.executions.get? call.effect = some record ∧ record.status = .completed ∧
          record.result = result) :
      Outcome host clock databaseNow store call answer store
  | bound {record : MerchantExecutionRecord}
      (heffect : (record.workspaceId, record.taskId, record.effectKey) = call.effect)
      (hnone : store.executions.get? call.effect = none) (hstatus : record.status = .bound) :
      Outcome host clock databaseNow store call .done (store.withExecution databaseNow record)
  | completed {answer : ExecutionAnswer} {record : MerchantExecutionRecord}
      (heffect : (record.workspaceId, record.taskId, record.effectKey) = call.effect)
      (hopen : ∀ old, store.executions.get? call.effect = some old → old.status ≠ .completed)
      (hstatus : record.status = .completed) (hanswer : ∀ snapshot, answer ≠ .execute snapshot)
      (hresult : ∀ result, answer.result? = some result → record.result = result) :
      Outcome host clock databaseNow store call answer (store.withExecution databaseNow record)
  | executed {input : ClaimMerchantExecutionInput} {record : MerchantExecutionRecord}
      {snapshot : MerchantExecutionInputSnapshot} (hsnapshot : record.inputSnapshot = snapshot)
      (hcall : call = .claimMerchantExecution input)
      (heffect : (record.workspaceId, record.taskId, record.effectKey) = call.effect)
      (hreservation : merchantExecutionMatchesReservation input
        (store.quotes.get? (input.workspaceId, input.taskId))
        (store.usage.get? (input.workspaceId, input.taskId)) = true)
      (hstatus : record.status = .claimed)
      (hcontract : record.contractHash = merchantExecutionContractHash host input)
      (hkey : record.idempotencyKey = input.idempotencyKey)
      (hover : ClaimedOver host clock input snapshot (store.executions.get? call.effect)) :
      Outcome host clock databaseNow store call (.execute snapshot)
        (store.withExecution databaseNow record)

theorem wp_saveMerchantExecution {Q : Unit → MerchantExecutionStore → Prop}
    {E : Thrown → MerchantExecutionStore → Prop} (hE : ∀ e, E e store)
    (h : Q () (store.withExecution databaseNow record)) :
    Wp (saveMerchantExecution databaseNow record) store Q E := by
  simp only [saveMerchantExecution, wp_bind, wp_ite, wp_throw, wp_modify]
  exact ⟨fun _ => hE _, fun _ => h⟩

theorem outcome_bind {input : BindMerchantExecutionInput} :
    Wp (bindMerchantExecutionInput host databaseNow input) store
      (Outcome host clock databaseNow store (.bindMerchantExecutionInput input))
      fun _ store' => store' = store := by
  have hdone : Outcome host clock databaseNow store (.bindMerchantExecutionInput input) .done
      store := .kept (fun _ => nofun) (fun _ h => nomatch h)
  simp only [bindMerchantExecutionInput, wp_bind, wp_check, wp_get, wp_ite, wp_throw, wp_pure]
  refine ⟨fun _ _ => ⟨fun _ => trivial, fun _ => ⟨fun _ => hdone, fun hagain => ?_⟩⟩,
    fun _ _ => trivial⟩
  split
  · simp only [wp_throw]
  · next quote hquote =>
    simp only [wp_bind, wp_check, wp_pure]
    refine ⟨fun _ _ => wp_saveMerchantExecution (fun _ => rfl) (.bound rfl ?_ rfl),
      fun _ _ => trivial⟩
    -- a quote of this revision would have ended the call, had the effect been bound
    obtain ⟨hstored, hexact⟩ := Option.filter_eq_some_iff.mp hquote
    obtain ⟨usage, -, hmatches⟩ := (Option.any_eq_true _ _).mp hexact
    obtain ⟨hworkspace, htask, hrevision, -⟩ := of_decide_eq_true hmatches
    rcases hexisting : store.executions.get? (input.workspaceId, input.taskId,
        merchantExecutionKey input.taskId) with _ | existing
    · exact hexisting
    · refine absurd ⟨by rw [hexisting]; rfl, ?_⟩ hagain
      rw [hstored, Option.any_some, decide_eq_true_eq]
      exact ⟨hworkspace, htask, hrevision⟩

theorem outcome_promote {input : PromoteMerchantExecutionInput} :
    Wp (promoteMerchantExecution host databaseNow input) store
      (Outcome host clock databaseNow store (.promoteMerchantExecution input))
      fun _ store' => store' = store := by
  simp only [promoteMerchantExecution, wp_bind, wp_check, wp_get, wp_ite, wp_throw]
  refine ⟨fun _ _ => ⟨fun _ => trivial, fun _ => ?_⟩, fun _ _ => trivial⟩
  split
  · simp only [wp_ite, wp_throw, wp_pure]
    exact ⟨fun _ => .kept (fun _ => by rintro ⟨⟩) (fun _ h => by cases h), fun _ => trivial⟩
  · next hnone =>
    split
    · simp only [wp_bind, wp_pure]
      refine wp_saveMerchantExecution (fun _ => rfl) (.completed rfl (fun old hold => ?_) rfl
        (fun _ => by rintro ⟨⟩) (fun _ h => by cases h))
      cases hnone.symm.trans hold
    · simp only [wp_throw]

variable {input : ClaimMerchantExecutionInput}

/-- A record over an existing one is of the same effect. -/
theorem outcome_claim (hkeyed : Keyed store) :
    Wp (claimMerchantExecution host clock databaseNow input) store
      (Outcome host clock databaseNow store (.claimMerchantExecution input))
      fun _ store' => store' = store := by
  simp only [claimMerchantExecution, wp_bind, wp_check, wp_get]
  refine ⟨fun _ _ => ⟨fun _ _ => ?_, fun _ _ => trivial⟩, fun _ _ => trivial⟩
  have hreserved : ∀ {u}, checkReservation store input = .ok u →
      merchantExecutionMatchesReservation input
        (store.quotes.get? (input.workspaceId, input.taskId))
        (store.usage.get? (input.workspaceId, input.taskId)) = true := by
    intro u hok
    rw [checkReservation, last_guard_eq_ok, not_not] at hok
    exact hok
  split
  · next existing hexisting =>
    have heffect := hkeyed _ existing hexisting
    by_cases hbound : existing.status = .bound
    · rw [if_pos hbound]
      simp only [claimBound, wp_bind, wp_ite, wp_throw, wp_check, wp_pure]
      refine ⟨fun _ => trivial, fun hmatches => ⟨fun _ hok => ?_, fun _ _ => trivial⟩⟩
      obtain ⟨-, hinput⟩ := not_or.mp hmatches
      refine wp_saveMerchantExecution (fun _ => rfl) (.executed rfl rfl heffect (hreserved hok) rfl rfl
        rfl ?_)
      rw [ExecutionCall.effect, hexisting]
      exact ⟨rfl, .inl ⟨hbound, not_not.mp hinput⟩⟩
    · rw [if_neg hbound]
      simp only [claimAgain, wp_bind, wp_ite, wp_throw, wp_check, wp_pure]
      refine ⟨fun _ => trivial, fun hsame => ⟨fun hcompleted => ?_, fun hopen => ⟨fun _ => ?_,
        fun hexpired => ⟨fun _ hok => ?_, fun _ _ => trivial⟩⟩⟩⟩
      · exact .kept (fun _ => by rintro ⟨⟩) fun result h =>
          ⟨existing, hexisting, hcompleted, Option.some.inj h⟩
      · exact .kept (fun _ => by rintro ⟨⟩) (fun _ h => by cases h)
      · obtain ⟨hcontract, hkey⟩ := not_or.mp hsame
        have hclaimed : existing.status = .claimed := by
          rcases hs : existing.status with _ | _ | _
          · exact absurd hs hbound
          · rfl
          · exact absurd hs hopen
        refine wp_saveMerchantExecution (fun _ => rfl) (.executed rfl rfl heffect (hreserved hok) rfl
          (not_not.mp hcontract) (not_not.mp hkey) ?_)
        rw [ExecutionCall.effect, hexisting]
        exact ⟨rfl, .inr ⟨hclaimed, not_not.mp hcontract, not_not.mp hexpired⟩⟩
  · next hnone =>
    simp only [claimFirst, wp_bind, wp_ite, wp_throw, wp_check, wp_pure]
    refine ⟨fun _ => trivial, fun _ => ⟨fun _ hok => ?_, fun _ _ => trivial⟩⟩
    refine wp_saveMerchantExecution (fun _ => rfl) (.executed rfl rfl rfl (hreserved hok) rfl rfl rfl ?_)
    rw [ExecutionCall.effect, hnone]
    exact rfl

theorem outcome_complete (hkeyed : Keyed store) {value : Option Json} :
    Wp (completeMerchantExecution host databaseNow input value) store
      (Outcome host clock databaseNow store (.completeMerchantExecution input value))
      fun _ store' => store' = store := by
  simp only [completeMerchantExecution, wp_bind, wp_check, wp_get]
  refine ⟨fun _ _ => ?_, fun _ _ => trivial⟩
  split
  · simp only [wp_throw]
  · next existing hfound =>
    have hexisting := (Option.filter_eq_some_iff.mp hfound).1
    simp only [wp_bind, wp_ite, wp_pure]
    refine ⟨fun hcompleted => .kept (fun _ => by rintro ⟨⟩) fun _ h =>
      ⟨existing, hexisting, hcompleted, Option.some.inj h⟩, fun hopen => ?_⟩
    refine wp_saveMerchantExecution (fun _ => rfl) (.completed (hkeyed _ existing hexisting)
      (fun old hold => ?_) rfl (fun _ => by rintro ⟨⟩) fun _ h => Option.some.inj h)
    exact Option.some.inj (hexisting.symm.trans hold) ▸ hopen

theorem outcome_settle (hkeyed : Keyed store) {input : SettleDurableInput} :
    Wp (settleDurableMerchantExecutionResult host databaseNow input) store
      (Outcome host clock databaseNow store (.settleDurableMerchantExecutionResult input))
      fun _ store' => store' = store := by
  simp only [settleDurableMerchantExecutionResult, wp_bind, wp_check, wp_get]
  refine ⟨fun _ _ => ⟨fun _ _ => ?_, fun _ _ => trivial⟩, fun _ _ => trivial⟩
  split
  · simp only [wp_throw]
  · next existing hfound =>
    have hexisting := (Option.filter_eq_some_iff.mp hfound).1
    simp only [wp_bind, wp_ite, wp_throw, wp_pure]
    refine ⟨fun hcompleted => ⟨fun _ => .kept (fun _ => by rintro ⟨⟩) fun _ h =>
      ⟨existing, hexisting, hcompleted, Option.some.inj h⟩, fun _ => trivial⟩, fun hopen => ?_⟩
    refine wp_saveMerchantExecution (fun _ => rfl) (.completed (hkeyed _ existing hexisting)
      (fun old hold => ?_) rfl (fun _ => by rintro ⟨⟩) fun _ h => Option.some.inj h)
    exact Option.some.inj (hexisting.symm.trans hold) ▸ hopen

/-- **Every call ends in an outcome**, or throws and saves nothing. -/
theorem outcome_perform (hkeyed : Keyed store) (call : ExecutionCall) :
    Wp (perform host clock databaseNow call) store (Outcome host clock databaseNow store call)
      fun _ store' => store' = store := by
  cases call with
  | bindMerchantExecutionInput input => exact outcome_bind
  | promoteMerchantExecution input => exact outcome_promote
  | claimMerchantExecution input => exact outcome_claim hkeyed
  | completeMerchantExecution input value => exact outcome_complete hkeyed
  | settleDurableMerchantExecutionResult input => exact outcome_settle hkeyed

/-! ## What a step keeps -/

variable {event : ExecutionEvent} {call : ExecutionCall} {answer : ExecutionAnswer}

/-- **What is read of a saved record.** -/
theorem get?_withExecution : (store.withExecution databaseNow record).executions.get? effect =
    if effect = (record.workspaceId, record.taskId, record.effectKey) then
      some (row databaseNow record) else store.executions.get? effect := OrderedMap.get?_set

theorem get?_saved (h : (record.workspaceId, record.taskId, record.effectKey) = effect) :
    (store.withExecution databaseNow record).executions.get? effect =
      some (row databaseNow record) := by
  rw [get?_withExecution, if_pos h.symm]

/-- A call that answers ends in its outcome. -/
theorem outcome_of_answer (hkeyed : Keyed store)
    (hanswer : result (perform host clock databaseNow call) store = .ok answer) :
    Outcome host clock databaseNow store call answer
      (step host store (.call clock databaseNow call)) :=
  (wp_iff_result.mp (outcome_perform hkeyed call)).1 answer hanswer

/-- **A property of the records is kept** if every outcome of a call keeps it. -/
theorem step_induct {I : OrderedMap EffectKey MerchantExecutionRecord → Prop}
    (hkeyed : Keyed store) (h : I store.executions)
    (houtcome : ∀ clock databaseNow call answer store',
      event = .call clock databaseNow call →
      result (perform host clock databaseNow call) store = .ok answer →
      Outcome host clock databaseNow store call answer store' → I store'.executions) :
    I (step host store event).executions := by
  cases event with
  | billing quotes usage => exact h
  | call clock databaseNow call =>
    have hperform : Wp (perform host clock databaseNow call) store
        (Outcome host clock databaseNow store call) (fun _ store' => store' = store) :=
      outcome_perform hkeyed call
    have hends := wp_iff_result.mp hperform
    rcases hresult : result (perform host clock databaseNow call) store with e | answer
    · rw [step, hends.2 e hresult]
      exact h
    · exact houtcome clock databaseNow call answer _ rfl hresult (hends.1 answer hresult)

theorem keyed_withExecution (hkeyed : Keyed store) :
    Keyed (store.withExecution databaseNow record) := by
  intro effect other hother
  rw [get?_withExecution] at hother
  split at hother
  · next heq => exact Option.some.inj hother ▸ heq.symm
  · exact hkeyed effect other hother

theorem keyed_step (hkeyed : Keyed store) : Keyed (step host store event) := by
  refine step_induct (I := fun executions => ∀ effect record, executions.get? effect = some record →
    (record.workspaceId, record.taskId, record.effectKey) = effect) hkeyed hkeyed ?_
  intro _ _ _ _ _ _ _ houtcome
  cases houtcome with
  | kept => exact hkeyed
  | bound => exact keyed_withExecution hkeyed
  | completed => exact keyed_withExecution hkeyed
  | executed => exact keyed_withExecution hkeyed

variable {snapshot : MerchantExecutionInputSnapshot}

/-- What stands in the place of a record that is claimed is not completed. -/
theorem not_completed_of_claimedOver (h : ClaimedOver host clock input snapshot (some old)) :
    old.status ≠ .completed := by
  obtain ⟨-, ⟨hs, -⟩ | ⟨hs, -⟩⟩ := h <;> rw [hs] <;> exact nofun

/-- **A completed record stays as it is.** -/
theorem completed_step (hkeyed : Keyed store)
    (hget : store.executions.get? effect = some record) (hs : record.status = .completed) :
    (step host store event).executions.get? effect = some record := by
  refine step_induct (I := fun executions => executions.get? effect = some record) hkeyed hget ?_
  intro _ _ call _ _ _ _ houtcome
  -- whatever is saved is of another effect
  have hother : ∀ {saved : MerchantExecutionRecord} {databaseNow : String},
      (saved.workspaceId, saved.taskId, saved.effectKey) = call.effect → effect ≠ call.effect →
        (store.withExecution databaseNow saved).executions.get? effect = some record := by
    intro saved databaseNow heffect hne
    rw [get?_withExecution, heffect, if_neg hne, hget]
  cases houtcome with
  | kept => exact hget
  | bound heffect hnone hstatus =>
    refine hother heffect ?_
    rintro rfl
    exact nomatch hnone.symm.trans hget
  | completed heffect hopen =>
    refine hother heffect ?_
    rintro rfl
    exact hopen record hget hs
  | executed hsnapshot hcall heffect hreservation hstatus hcontract hkey hover =>
    refine hother heffect ?_
    rintro rfl
    rw [hget] at hover
    exact not_completed_of_claimedOver hover hs

/-- **A result that is answered is the one that is completed.** -/
theorem completed_of_answer (hkeyed : Keyed store) {value : Option Json}
    (hanswer : Answers host store event effect answer) (hvalue : answer.result? = some value) :
    ∃ record, (step host store event).executions.get? effect = some record ∧
      record.status = .completed ∧ record.result = value := by
  obtain ⟨clock, databaseNow, call, rfl, rfl, hok⟩ := hanswer
  have houtcome := outcome_of_answer hkeyed hok
  generalize step host store (.call clock databaseNow call) = store' at houtcome ⊢
  cases houtcome with
  | kept _ hresult => exact hresult value hvalue
  | bound => exact nomatch hvalue
  | completed heffect hopen hstatus _ hresult =>
    rw [get?_withExecution, if_pos heffect.symm]
    refine ⟨_, rfl, hstatus, ?_⟩
    rw [row, if_pos hstatus]
    exact hresult value hvalue
  | executed => exact nomatch hvalue

/-! ## Claims -/

/-- **A claim of a completed effect** is answered with its result, under its contract and key. -/
theorem claim_completed
    (hget : store.executions.get? (input.workspaceId, input.taskId, input.effectKey) = some record)
    (hs : record.status = .completed) :
    (∀ answer, result (claimMerchantExecution host clock databaseNow input) store = .ok answer →
      answer = .replay record.result ∧
        record.contractHash = merchantExecutionContractHash host input ∧
          record.idempotencyKey = input.idempotencyKey) ∧
    (requireWorkspace input.workspaceId = .ok () → checkInputHashes host input = .ok () →
      record.contractHash = merchantExecutionContractHash host input →
      record.idempotencyKey = input.idempotencyKey →
        result (claimMerchantExecution host clock databaseNow input) store =
          .ok (.replay record.result)) := by
  have hbound : record.status ≠ .bound := by
    rw [hs]
    exact nofun
  constructor
  · have hends : Wp (claimMerchantExecution host clock databaseNow input) store
        (fun answer _ => answer = .replay record.result ∧
          record.contractHash = merchantExecutionContractHash host input ∧
            record.idempotencyKey = input.idempotencyKey) fun _ _ => True := by
      simp only [claimMerchantExecution, wp_bind, wp_check, wp_get, hget, if_neg hbound, claimAgain,
        wp_ite, wp_throw, wp_pure]
      refine ⟨fun _ _ => ⟨fun _ _ => ⟨fun _ => trivial, fun hsame => ⟨fun _ => ?_,
        fun hopen => absurd hs hopen⟩⟩, fun _ _ => trivial⟩, fun _ _ => trivial⟩
      obtain ⟨hcontract, hkey⟩ := not_or.mp hsame
      exact ⟨trivial, not_not.mp hcontract, not_not.mp hkey⟩
    exact (wp_iff_result.mp hends).1
  · intro hworkspace hhashes hcontract hkey
    have hends : Wp (claimMerchantExecution host clock databaseNow input) store
        (fun answer _ => answer = .replay record.result) fun _ _ => False := by
      simp only [claimMerchantExecution, wp_bind, wp_check_ok hworkspace, wp_check_ok hhashes,
        wp_get, hget, if_neg hbound, claimAgain, wp_ite, wp_throw, wp_pure]
      exact ⟨fun hother => hother.elim (absurd hcontract) (absurd hkey), fun _ =>
        ⟨fun _ => trivial, fun hopen => absurd hs hopen⟩⟩
    obtain ⟨answer, store', hok, rfl⟩ := hends.returns
    rw [result, hok]

/-- **Every claimed record carries the input of a claim of its contract**, one of those `made`. -/
def Traced (host : ExecutionHost) (made : ClaimMerchantExecutionInput → Prop)
    (executions : OrderedMap EffectKey MerchantExecutionRecord) : Prop :=
  ∀ effect record, executions.get? effect = some record → record.status = .claimed →
    ∃ claim, made claim ∧ merchantExecutionContractHash host claim = record.contractHash ∧
      snapshotFingerprint host record.inputSnapshot =
        snapshotFingerprint host claim.inputSnapshot

variable {made : ClaimMerchantExecutionInput → Prop}

/-- The input that is answered is that of a claim of the same contract. -/
theorem traced_snapshot (h : Traced host made store.executions) (hinput : made input)
    (hover : ClaimedOver host clock input snapshot (store.executions.get? effect)) :
    ∃ claim, made claim ∧ merchantExecutionContractHash host claim =
        merchantExecutionContractHash host input ∧
      snapshotFingerprint host snapshot = snapshotFingerprint host claim.inputSnapshot := by
  rcases hold : store.executions.get? effect with _ | old
  · rw [hold] at hover
    exact ⟨input, hinput, rfl, congrArg _ hover⟩
  · rw [hold] at hover
    obtain ⟨rfl, ⟨-, hsame⟩ | ⟨hs, hcontract, -⟩⟩ := hover
    · exact ⟨input, hinput, rfl, hsame⟩
    · obtain ⟨claim, hclaim, hclaimContract, hsame⟩ := h effect old hold hs
      exact ⟨claim, hclaim, hclaimContract.trans hcontract, hsame⟩

theorem traced_step (hkeyed : Keyed store) (h : Traced host made store.executions)
    (hevent : ∀ clock databaseNow input,
      event = .call clock databaseNow (.claimMerchantExecution input) → made input) :
    Traced host made (step host store event).executions := by
  refine step_induct (I := Traced host made) hkeyed h ?_
  intro clock databaseNow call _ _ hcall _ houtcome
  -- a record that is saved and not claimed needs no trace
  have hsaved : ∀ {saved : MerchantExecutionRecord}, saved.status ≠ .claimed →
      Traced host made (store.withExecution databaseNow saved).executions := by
    intro saved hs effect record hget hclaimed
    rw [get?_withExecution] at hget
    split at hget
    · obtain rfl := Option.some.inj hget
      exact absurd hclaimed hs
    · exact h effect record hget hclaimed
  cases houtcome with
  | kept => exact h
  | bound _ _ hstatus =>
    refine hsaved ?_
    rw [hstatus]
    rintro ⟨⟩
  | completed _ _ hstatus =>
    refine hsaved ?_
    rw [hstatus]
    rintro ⟨⟩
  | @executed input saved _ hsnapshot hclaim _ _ _ hcontract _ hover =>
    intro effect record hget hclaimed
    rw [get?_withExecution] at hget
    split at hget
    · obtain rfl := Option.some.inj hget
      obtain ⟨claim, hmade, hclaimContract, hsame⟩ :=
        traced_snapshot h (hevent clock databaseNow input (hclaim ▸ hcall)) hover
      exact ⟨claim, hmade, hclaimContract.trans hcontract.symm, hsnapshot ▸ hsame⟩
    · exact h effect record hget hclaimed

/-- **`execute` is answered on what the claim matches.** -/
theorem executesOn_of_answer {events : List ExecutionEvent} (hkeyed : Keyed store)
    (h : Traced host (Claimed events) store.executions) (hinput : Claimed events input)
    (hok : result (claimMerchantExecution host clock databaseNow input) store =
      .ok (.execute snapshot)) : ExecutesOn host events store
      (step host store (.call clock databaseNow (.claimMerchantExecution input))) databaseNow input
      snapshot := by
  have hanswer : result (perform host clock databaseNow (.claimMerchantExecution input)) store =
      .ok _ := hok
  have houtcome := outcome_of_answer hkeyed hanswer
  generalize step host store (.call clock databaseNow (.claimMerchantExecution input)) = store'
    at houtcome ⊢
  cases houtcome with
  | kept hanswer => exact absurd rfl (hanswer snapshot)
  | completed _ _ _ hanswer => exact absurd rfl (hanswer snapshot)
  | @executed input' saved _ hsnapshot hclaim heffect hreservation hstatus hcontract hkey hover =>
    obtain rfl : input = input' := by simpa using hclaim
    exact ⟨hreservation, ⟨row databaseNow saved, get?_saved heffect, hstatus, hcontract, hkey,
      hsnapshot, rfl⟩, traced_snapshot h hinput hover⟩

/-! ## Leases -/

/-- **The lease of the effect runs** from `databaseNow`, or the effect is completed. -/
def Leased (effect : EffectKey) (databaseNow : String)
    (executions : OrderedMap EffectKey MerchantExecutionRecord) : Prop :=
  ∃ record, executions.get? effect = some record ∧
    (record.status = .claimed ∧ record.updatedAt = some databaseNow ∨ record.status = .completed)

/-- An answer `execute` begins a lease. -/
theorem leased_of_executes (hkeyed : Keyed store)
    (h : Executes host store effect (.call clock databaseNow call)) :
    Leased effect databaseNow (step host store (.call clock databaseNow call)).executions := by
  obtain ⟨snapshot, clock, databaseNow, call, ⟨⟩, rfl, hok⟩ := h
  have houtcome := outcome_of_answer hkeyed hok
  generalize step host store (.call clock databaseNow call) = store' at houtcome ⊢
  cases houtcome with
  | kept hanswer => exact absurd rfl (hanswer snapshot)
  | completed _ _ _ hanswer => exact absurd rfl (hanswer snapshot)
  | @executed _ saved _ _ _ heffect _ hstatus =>
    exact ⟨row databaseNow saved, get?_saved heffect, .inl ⟨hstatus, rfl⟩⟩

variable {start : String}

/-- It runs on while nothing executes the effect. -/
theorem leased_step (hkeyed : Keyed store) (h : Leased effect start store.executions)
    (hnot : ¬ Executes host store effect event) :
    Leased effect start (step host store event).executions := by
  refine step_induct (I := Leased effect start) hkeyed h ?_
  intro clock databaseNow call answer store' hevent hok houtcome
  obtain ⟨record, hget, hleased⟩ := h
  have hother : ∀ {saved : MerchantExecutionRecord},
      (saved.workspaceId, saved.taskId, saved.effectKey) = call.effect → effect ≠ call.effect →
        Leased effect start (store.withExecution databaseNow saved).executions := by
    intro saved heffect hne
    exact ⟨record, by rw [get?_withExecution, heffect, if_neg hne, hget], hleased⟩
  cases houtcome with
  | kept => exact ⟨record, hget, hleased⟩
  | bound heffect hnone =>
    refine hother heffect ?_
    rintro rfl
    exact nomatch hnone.symm.trans hget
  | @completed _ saved heffect hopen hstatus =>
    by_cases heq : effect = call.effect
    · exact ⟨row databaseNow saved, get?_saved (heffect.trans heq.symm), .inr hstatus⟩
    · exact hother heffect heq
  | executed _ _ heffect =>
    refine hother heffect ?_
    rintro rfl
    exact hnot ⟨_, clock, databaseNow, call, hevent, rfl, hok⟩

/-- **Executed again, the effect's lease has run out**, by the later clock. -/
theorem expired_of_executes (hkeyed : Keyed store) (h : Leased effect start store.executions)
    (hexecutes : Executes host store effect (.call clock databaseNow call)) :
    merchantExecutionClaimExpired host (some start) clock = true := by
  obtain ⟨snapshot, clock, databaseNow, call, ⟨⟩, rfl, hok⟩ := hexecutes
  obtain ⟨record, hget, hleased⟩ := h
  have houtcome := outcome_of_answer hkeyed hok
  generalize step host store (.call clock databaseNow call) = store' at houtcome
  cases houtcome with
  | kept hanswer => exact absurd rfl (hanswer snapshot)
  | completed _ _ _ hanswer => exact absurd rfl (hanswer snapshot)
  | executed _ _ _ _ _ _ _ hover =>
    rw [hget] at hover
    rcases hleased with ⟨hs, hstart⟩ | hs
    · obtain ⟨-, ⟨hbound, -⟩ | ⟨-, -, hexpired⟩⟩ := hover
      · exact nomatch hs.symm.trans hbound
      · exact hstart ▸ hexpired
    · exact absurd hs (not_completed_of_claimedOver hover)

/-! ## Runs -/

theorem keyed_empty : Keyed empty :=
  fun _ _ h => nomatch OrderedMap.get?_empty.symm.trans h

theorem keyed_run (events : List ExecutionEvent) : Keyed (runAll (step host) events empty) :=
  runAll_invariant Keyed (fun _ _ hkeyed => keyed_step hkeyed) events keyed_empty

/-- A completed record is there after any more events. -/
theorem completed_run (hkeyed : Keyed store)
    (hget : store.executions.get? effect = some record) (hs : record.status = .completed)
    (events : List ExecutionEvent) :
    (runAll (step host) events store).executions.get? effect = some record :=
  (runAll_invariant
    (fun store => Keyed store ∧ store.executions.get? effect = some record)
    (fun _ _ h => ⟨keyed_step h.1, completed_step h.1 h.2 hs⟩) events ⟨hkeyed, hget⟩).2

/-- What is claimed traces back to the claims among the events. -/
theorem traced_run (events : List ExecutionEvent)
    (hmade : ∀ input, Claimed events input → made input) :
    Traced host made (runAll (step host) events empty).executions := by
  have hadmits : Admits (step host) (fun _ event => event ∈ events) events empty :=
    admits_of_forall fun _ hmem _ => hmem
  refine (runAll_induct (fun store => Keyed store ∧ Traced host made store.executions) ?_ events ?_
    hadmits).2
  · intro store event h hmem
    refine ⟨keyed_step h.1, traced_step h.1 h.2 ?_⟩
    rintro clock databaseNow input rfl
    exact hmade input ⟨clock, databaseNow, hmem⟩
  · exact ⟨keyed_empty, fun _ _ h => nomatch OrderedMap.get?_empty.symm.trans h⟩

/-- A lease runs on through events that do not execute the effect. -/
theorem leased_run (hkeyed : Keyed store) (h : Leased effect start store.executions)
    (events : List ExecutionEvent)
    (hnot : Admits (step host) (fun store event => ¬ Executes host store effect event) events
      store) : Leased effect start (runAll (step host) events store).executions :=
  (runAll_induct (fun store => Keyed store ∧ Leased effect start store.executions)
    (fun _ _ h hnot => ⟨keyed_step h.1, leased_step h.1 h.2 hnot⟩) events ⟨hkeyed, h⟩ hnot).2

/-- **In every run an effect is completed at most once**, and executed again only after the lease
has run out. -/
theorem claimedOnce_run (host : ExecutionHost) (events : List ExecutionEvent) :
    ClaimedOnce host events where
  kept := by
    rintro before after effect record rfl hget hs
    rw [runAll_append]
    exact completed_run (keyed_run before) hget hs after
  single := by
    rintro before event after effect answer value rfl hanswer hvalue
    obtain ⟨record, hget, hs, hresult⟩ := completed_of_answer (keyed_run before) hanswer hvalue
    refine ⟨record, ?_, hs, hresult⟩
    rw [runAll_append, runAll_cons]
    exact completed_run (keyed_step (keyed_run before)) hget hs after
  replays := by
    rintro before clock databaseNow input after record rfl hget hs
    exact claim_completed hget hs
  executes := by
    rintro before clock databaseNow input after snapshot rfl hok
    rw [runAll_append before [_], runAll_cons]
    refine executesOn_of_answer (keyed_run before) (traced_run before ?_) ?_ hok
    · rintro claim ⟨clock, databaseNow, hmem⟩
      exact ⟨clock, databaseNow, List.mem_append_left _ hmem⟩
    · exact ⟨clock, databaseNow, List.mem_append_right _ List.mem_cons_self⟩
  leases := by
    rintro before clock databaseNow call between clock' databaseNow' call' after effect rfl
      hexecutes hnot hagain
    rw [runAll_append, runAll_cons] at hnot hagain
    have hkeyed : Keyed (step host (runAll (step host) before empty)
        (.call clock databaseNow call)) := keyed_step (keyed_run before)
    have hleased := leased_run hkeyed (leased_of_executes (keyed_run before) hexecutes) between hnot
    refine expired_of_executes ?_ hleased hagain
    exact runAll_invariant Keyed (fun _ _ hkeyed => keyed_step hkeyed) between hkeyed

/-- A host that names a contract by its effect, and a value by its text. -/
def plainExecutionHost : ExecutionHost where
  toHost := isoHost
  contractDigest facts := facts.effectKey
  fingerprintValue value := value.text?.getD "{}"

/-- A claim of an auxiliary effect under an idempotency key. -/
def auxiliaryClaim (idempotencyKey : String) : ClaimMerchantExecutionInput where
  catalogModelId := "model"
  operation := "image"
  outputCount := 1
  quoteRevision := "revision"
  submissionContractHash := "contract"
  submissionInputAssetsHash := none
  submissionPromptHash := none
  submissionReferenceAssetsHash := none
  targetSeconds := none
  effectKey := "merchant-execution:task:aux"
  inputAssetsHash := "{}"
  idempotencyKey
  inputSnapshot :=
    { input := none
      instructions := none
      prompt := "prompt"
      schema := none
      schemaName := none
      schemaRevision := none
      streaming := none }
  promptHash := "prompt"
  providerCatalogModelId := "model"
  providerOperation := "image"
  referenceAssetsHash := "{}"
  taskId := "task"
  workspaceId := "workspace"

/-- The reserved quote of the task, and its usage. -/
def auxiliaryReservation : ExecutionEvent :=
  let quote : ProductQuoteSnapshot :=
    { newQuote ProductQuoteService.isoQuoteHost .epoch
        { quoteId := "quote"
          catalogModelId := "model"
          operation := some "image"
          quotePolicyRevision := "quote.policy@1"
          submissionContractHash := some "contract"
          billingMode := .per_request
          outputCount := some 1
          unitRate := 1
          taskId := some "task"
          workspaceId := some "workspace" } with
      lifecycleStatus := .reserved }
  let usage := MemoryProductUsageLedger.reservation
    { id := "usage"
      taskId := "task"
      workspaceId := "workspace"
      quoteId := "quote"
      billingMode := .per_request
      createdAt := isoText 0 } [⟨.image, 1⟩] none (isoText 0)
  .billing (OrderedMap.empty.set ("workspace", "task") quote)
    (OrderedMap.empty.set ("workspace", "task") usage)

/-- The effect is claimed and completed under one key. -/
def auxiliaryCompleted : List ExecutionEvent :=
  let call := fun call => ExecutionEvent.call .epoch (isoText 0) call
  [auxiliaryReservation,
    call (.claimMerchantExecution (auxiliaryClaim "first")),
    call (.completeMerchantExecution (auxiliaryClaim "first") (some (.text "result")))]

/-- **A claim of the completed effect under another key** is not answered with its result. -/
theorem not_replayed_under_other_key :
    ¬ ∀ (events : List ExecutionEvent) (clock : TimeValue) (databaseNow : String)
      (input : ClaimMerchantExecutionInput) (record : MerchantExecutionRecord),
      (runAll (step plainExecutionHost) events empty).executions.get?
        (input.workspaceId, input.taskId, input.effectKey) = some record →
      record.status = .completed →
        result (claimMerchantExecution plainExecutionHost clock databaseNow input)
          (runAll (step plainExecutionHost) events empty) = .ok (.replay record.result) := by
  intro h
  have hcompleted : ((runAll (step plainExecutionHost) auxiliaryCompleted empty).executions.get?
      ("workspace", "task", "merchant-execution:task:aux")).any
        (·.status = .completed) = true := by decide +kernel
  have hrefused : (result (claimMerchantExecution plainExecutionHost ⟨0, by decide⟩ (isoText 0)
      (auxiliaryClaim "second")) (runAll (step plainExecutionHost) auxiliaryCompleted
        empty)).toBool = false := by decide +kernel
  obtain ⟨record, hrecord, hs⟩ := (Option.any_eq_true _ _).mp hcompleted
  rw [h auxiliaryCompleted _ _ (auxiliaryClaim "second") record hrecord (of_decide_eq_true hs)]
    at hrefused
  exact nomatch hrefused

end MerchantExecutionStore

end MeiyeAgent
