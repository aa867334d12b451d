import MeiyeAgent.Generation.GenerationEffects

/-!
# Generation/AttemptsOnce — a provider is not asked twice for accepted work

An attempt is opened on the word of the last one alone.  That is enough, as there are two at most:
the last of one is the only one.

* `AttemptsOnce` — the invariant: two attempts of a job at most, of which one may be open.
* `AsksOnce` — what one command may do to the attempts: evidence stays, and a new attempt follows
  rejected ones on a route that contains it.
* `asksOnce_run` — **every run asks once**.
-/

namespace MeiyeAgent

open Effect GenerationTables

variable {s s' : GenerationTables}

/-! ## The invariant -/

/-- **The invariant**: a job has two attempts at most, and those before its last were rejected. -/
structure AttemptsOnce (s : GenerationTables) : Prop where
  job : ∀ id job, s.generationJobs.get? id = some job → job.id = id
  attempt : ∀ id attempt, s.attempts.get? id = some attempt →
    attempt.id = id ∧ (s.generationJobs.get? attempt.jobId).isSome = true
  two : ∀ jobId, (s.listProviderAttempts jobId).length ≤ 2
  earlier : ∀ jobId, ∀ attempt ∈ (s.listProviderAttempts jobId).dropLast,
    attempt.acceptance = .rejected_before_accept

theorem AttemptsOnce.empty : AttemptsOnce .empty where
  job _ _ h := nomatch (OrderedMap.get?_empty).symm.trans h
  attempt _ _ h := nomatch (OrderedMap.get?_empty).symm.trans h
  two _ := Nat.zero_le _
  earlier _ _ h := absurd h List.not_mem_nil

/-- The attempts do not look at the usage. -/
theorem AttemptsOnce.others (h : AttemptsOnce s) (hjobs : s'.generationJobs = s.generationJobs)
    (hattempts : s'.attempts = s.attempts) : AttemptsOnce s' where
  job := hjobs ▸ h.job
  attempt := hjobs ▸ hattempts ▸ h.attempt
  two jobId := by
    rw [listProviderAttempts, hattempts]
    exact h.two jobId
  earlier jobId := by
    rw [listProviderAttempts, hattempts]
    exact h.earlier jobId

/-- The jobs that were there are still there, under their ids. -/
theorem job_set {job : GenerationJob} (h : AttemptsOnce s) :
    (∀ id found, (s.generationJobs.set job.id job).get? id = some found → found.id = id) ∧
      ∀ id, (s.generationJobs.get? id).isSome = true →
        ((s.generationJobs.set job.id job).get? id).isSome = true := by
  refine ⟨OrderedMap.forall_get?_set rfl h.job, fun id hid => ?_⟩
  rw [OrderedMap.get?_set]
  split
  · rfl
  · exact hid

/-- A job is written. -/
theorem AttemptsOnce.setJob (h : AttemptsOnce s) (job : GenerationJob)
    (hjobs : s'.generationJobs = s.generationJobs.set job.id job)
    (hattempts : s'.attempts = s.attempts) : AttemptsOnce s' where
  job := hjobs ▸ (job_set h).1
  attempt id attempt hattempt := by
    rw [hattempts] at hattempt
    obtain ⟨hid, hof⟩ := h.attempt id attempt hattempt
    exact ⟨hid, hjobs ▸ (job_set h).2 _ hof⟩
  two jobId := by
    rw [listProviderAttempts, hattempts]
    exact h.two jobId
  earlier jobId := by
    rw [listProviderAttempts, hattempts]
    exact h.earlier jobId

/-- What is written in place keeps its place, and what was true of those before the last. -/
theorem mem_dropLast_replaced {α : Type} {P : α → Prop} {before after : List α} {old new : α}
    (hold : P old → P new) (h : ∀ a ∈ (before ++ old :: after).dropLast, P a) :
    ∀ a ∈ (before ++ new :: after).dropLast, P a := by
  rw [List.dropLast_append_of_ne_nil (List.cons_ne_nil _ _)] at h ⊢
  intro a ha
  rcases List.mem_append.mp ha with ha | ha
  · exact h a (List.mem_append_left _ ha)
  · match after, ha, h with
    | [], ha, _ => exact absurd ha List.not_mem_nil
    | next :: rest, ha, h =>
      rcases List.mem_cons.mp ha with rfl | ha
      · exact hold (h old (List.mem_append_right _ List.mem_cons_self))
      · exact h a (List.mem_append_right _ (List.mem_cons_of_mem _ ha))

/-- **An attempt is written over**: it stays with its job, and rejected if it was so. -/
theorem AttemptsOnce.update (h : AttemptsOnce s) (attempt updated : ProviderAttempt)
    (hattempt : s.attempts.get? attempt.id = some attempt) (hid : updated.id = attempt.id)
    (hof : updated.jobId = attempt.jobId)
    (hrejected : attempt.acceptance = .rejected_before_accept →
      updated.acceptance = .rejected_before_accept)
    (hjobs : s'.generationJobs = s.generationJobs)
    (hattempts : s'.attempts = s.attempts.set updated.id updated) : AttemptsOnce s' := by
  obtain ⟨before, after, hvalues, hset⟩ := OrderedMap.values_set_of_some (hid ▸ hattempt)
  have hlist (jobId : String) : s.listProviderAttempts jobId = s'.listProviderAttempts jobId ∨
      ∃ before after, s.listProviderAttempts jobId = before ++ attempt :: after ∧
        s'.listProviderAttempts jobId = before ++ updated :: after := by
    rw [listProviderAttempts, listProviderAttempts, hattempts, hvalues, hset, List.filter_append,
      List.filter_append]
    by_cases hjob : attempt.jobId = jobId
    · refine .inr ⟨before.filter (·.jobId = jobId), after.filter (·.jobId = jobId), ?_, ?_⟩
      · rw [List.filter_cons_of_pos (by simpa using hjob)]
      · rw [List.filter_cons_of_pos (by simpa [hof] using hjob)]
    · left
      rw [List.filter_cons_of_neg (by simpa using hjob),
        List.filter_cons_of_neg (by simpa [hof] using hjob)]
  refine ⟨hjobs ▸ h.job, fun id found hfound => ?_, fun jobId => ?_, fun jobId => ?_⟩
  · rw [hattempts, OrderedMap.get?_set] at hfound
    rw [hjobs]
    split at hfound
    · next heq =>
      obtain rfl := Option.some.inj hfound
      exact ⟨heq.symm, hof ▸ (h.attempt _ _ hattempt).2⟩
    · exact h.attempt id found hfound
  · rcases hlist jobId with hsame | ⟨before, after, hbefore, hafter⟩
    · exact hsame ▸ h.two jobId
    · have htwo := h.two jobId
      rw [hbefore, List.length_append] at htwo
      rw [hafter, List.length_append]
      exact htwo
  · rcases hlist jobId with hsame | ⟨before, after, hbefore, hafter⟩
    · exact hsame ▸ h.earlier jobId
    · have hearlier := h.earlier jobId
      rw [hbefore] at hearlier
      rw [hafter]
      exact mem_dropLast_replaced hrejected hearlier

/-- **An attempt is opened**: its job has one at most, and it was rejected. -/
theorem AttemptsOnce.open (h : AttemptsOnce s) {attempt : ProviderAttempt}
    (hfresh : s.attempts.get? attempt.id = none)
    (hjob : (s.generationJobs.get? attempt.jobId).isSome = true)
    (hfew : (s.listProviderAttempts attempt.jobId).length < 2)
    (hrejected : ∀ other ∈ s.listProviderAttempts attempt.jobId,
      other.acceptance = .rejected_before_accept)
    (hjobs : s'.generationJobs = s.generationJobs)
    (hattempts : s'.attempts = s.attempts.set attempt.id attempt) : AttemptsOnce s' := by
  have hlist (jobId : String) : s'.listProviderAttempts jobId = s.listProviderAttempts jobId ++
      if attempt.jobId = jobId then [attempt] else [] := by
    rw [listProviderAttempts, listProviderAttempts, hattempts, OrderedMap.values_set_of_none hfresh,
      List.filter_append]
    congr 1
    split
    · next heq => rw [List.filter_cons_of_pos (by simpa using heq), List.filter_nil]
    · next hne => rw [List.filter_cons_of_neg (by simpa using hne), List.filter_nil]
  refine ⟨hjobs ▸ h.job, fun id found hfound => ?_, fun jobId => ?_, fun jobId => ?_⟩
  · rw [hattempts, OrderedMap.get?_set] at hfound
    rw [hjobs]
    split at hfound
    · next heq =>
      obtain rfl := Option.some.inj hfound
      exact ⟨heq.symm, hjob⟩
    · exact h.attempt id found hfound
  · rw [hlist, List.length_append]
    split
    · next heq => exact heq ▸ Nat.succ_le_of_lt hfew
    · exact h.two jobId
  · rw [hlist]
    split
    · next heq =>
      rw [List.dropLast_concat]
      exact heq ▸ hrejected
    · rw [List.append_nil]
      exact h.earlier jobId

/-- **Those before the last were rejected**, so one at most was not. -/
theorem AttemptsOnce.live (h : AttemptsOnce s) (jobId : String) :
    ((s.listProviderAttempts jobId).filter
      (·.acceptance ≠ .rejected_before_accept)).length ≤ 1 := by
  have hearlier := h.earlier jobId
  rcases List.eq_nil_or_concat (s.listProviderAttempts jobId) with hnil | ⟨earlier, last, hlist⟩
  · rw [hnil]
    exact Nat.zero_le _
  · rw [hlist, List.concat_eq_append] at hearlier ⊢
    rw [List.dropLast_concat] at hearlier
    rw [List.filter_append, List.filter_eq_nil_iff.mpr fun other hother => by
      simp [hearlier other hother], List.nil_append]
    exact List.length_filter_le _ _

/-! ## Earlier attempts -/

/-- Evidence that follows a rejection is a rejection. -/
theorem Follows.rejected {before after : ProviderAcceptance} (h : Follows before after)
    (hrejected : before = .rejected_before_accept) : after = .rejected_before_accept := by
  rcases h with hpending | hunknown | hsame
  · exact nomatch hrejected.symm.trans hpending
  · exact nomatch hrejected.symm.trans hunknown
  · exact hsame.trans hrejected

/-- **The last one speaks for all**: with fewer than two attempts the last is the only one. -/
theorem checkPrevious_eq_ok {snapshot : RouteSnapshot} {attempts : List ProviderAttempt}
    (h : checkPrevious snapshot attempts = .ok ()) : attempts.length < 2 ∧
      (∀ other ∈ attempts, other.acceptance = .rejected_before_accept) ∧
      (attempts ≠ [] → snapshot.fallbackConsent = true) := by
  rw [checkPrevious, guard_eq_ok] at h
  obtain ⟨hfew, h⟩ := h
  match attempts, not_le.mp hfew with
  | [], hfew => exact ⟨hfew, nofun, fun hne => absurd rfl hne⟩
  | [previous], hfew =>
    simp only [List.getLast?_singleton, guard_eq_ok, last_guard_eq_ok, not_not] at h
    exact ⟨hfew, fun other hother => List.mem_singleton.mp hother ▸ h.1, fun _ => h.2⟩

/-- A job that is not there has no attempts. -/
theorem AttemptsOnce.attempts_of_new (h : AttemptsOnce s) {jobId : String}
    (hnew : s.generationJobs.get? jobId = none) : s.listProviderAttempts jobId = [] := by
  refine List.filter_eq_nil_iff.mpr fun attempt hattempt hof => ?_
  obtain ⟨id, hid⟩ := OrderedMap.mem_values.mp hattempt
  have hjob := (h.attempt id attempt hid).2
  rw [of_decide_eq_true hof, hnew] at hjob
  exact nomatch hjob

/-! ## A step -/

/-- **The invariant holds after every effect.** -/
theorem AttemptsOnce.of_effect (h : AttemptsOnce s) {operation : GenerationOperation}
    (heffect : GenerationEffect s operation s') : AttemptsOnce s' := by
  cases heffect with
  | kept => exact h
  | appended => exact h.others rfl rfl
  | started input snapshot job => exact h.setJob job rfl rfl
  | checkpointed input opening s₁ s₂ snapshots snapshot job attempt hopens hreserves hsnapshots
      hsnapshot hcontains hnew hid hoperation husage hstatus hfresh hjob hpending =>
    have hnone := h.attempts_of_new hnew
    have hjobs : AttemptsOnce { s with generationJobs := s.generationJobs.set job.id job } :=
      h.setJob job rfl rfl
    refine AttemptsOnce.others (s := { s with
      generationJobs := s.generationJobs.set job.id job
      attempts := s.attempts.set attempt.id attempt }) (hjobs.open hfresh ?_ ?_ ?_ rfl rfl) rfl rfl
    · rw [hjob, OrderedMap.get?_set_self]
      rfl
    · rw [hjob]
      exact hnone ▸ Nat.zero_lt_two
    · rw [hjob]
      exact fun other hother => absurd (hnone ▸ hother) List.not_mem_nil
  | opened input job snapshot attempt now hjob hstatus hsnapshot hcontains hprevious hfresh hof
      hpending =>
    obtain ⟨hfew, hrejected, -⟩ := checkPrevious_eq_ok hprevious
    have hid := h.job _ _ hjob
    have hopen : AttemptsOnce { s with attempts := s.attempts.set attempt.id attempt } := by
      refine h.open hfresh ?_ (hof ▸ hfew) (fun other hother => ?_) rfl rfl
      · rw [hof, hid, hjob]
        rfl
      · exact hrejected other (hof ▸ hother)
    exact hopen.setJob { job with status := .running, updatedAt := now } rfl rfl
  | accepted input attempt updated hattempt hpending hid hof =>
    have hstored := (h.attempt _ _ hattempt).1
    exact h.update attempt updated (hstored ▸ hattempt) hid hof
      (fun hrejected => nomatch hpending.symm.trans hrejected) rfl rfl
  | settled input attempt updated job updatedJob s₁ costs assets hattempt hjob hstatus hfollows
      hdelivered hid hof =>
    have hstored := (h.attempt _ _ hattempt).1
    have hupdated : AttemptsOnce { s with attempts := s.attempts.set updated.id updated } :=
      h.update attempt updated (hstored ▸ hattempt) hid hof hfollows.rejected rfl rfl
    exact hupdated.setJob updatedJob rfl rfl
  | received input attempt job s₁ assets now hattempt hjob hof haccepted =>
    have hstored := (h.attempt _ _ hattempt).1
    let updated : ProviderAttempt := { attempt with status := .completed, updatedAt := now }
    let completed : GenerationJob := { job with status := .completed, updatedAt := now }
    have hjobs : AttemptsOnce { s with
        generationJobs := s.generationJobs.set completed.id completed } := h.setJob completed rfl rfl
    exact hjobs.update attempt updated (hstored ▸ hattempt) rfl rfl
      (fun hrejected => hrejected) rfl rfl
  | failed input job s₁ now =>
    let failed : GenerationJob := { job with status := .failed, updatedAt := now }
    exact h.setJob failed rfl rfl
  | refunded => exact h.others rfl rfl
  | compensated => exact h.others rfl rfl

/-- **What a command may do to the attempts**: evidence that was recorded stays, a route stays
frozen, and a new attempt follows rejected ones on a route that allows it. -/
structure AsksOnce (s s' : GenerationTables) : Prop where
  evidence : ∀ id attempt, s.attempts.get? id = some attempt →
    attempt.acceptance = .accepted ∨ attempt.acceptance = .rejected_before_accept →
      ∃ later, s'.attempts.get? id = some later ∧ later.acceptance = attempt.acceptance
  frozen : ∀ id snapshot, s.routeSnapshots.get? id = some snapshot →
    s'.routeSnapshots.get? id = some snapshot
  opens : ∀ id attempt, s.attempts.get? id = none → s'.attempts.get? id = some attempt →
    (∀ earlier ∈ s.listProviderAttempts attempt.jobId,
      earlier.acceptance = .rejected_before_accept) ∧
    ∃ job snapshot, s'.generationJobs.get? attempt.jobId = some job ∧
      s'.routeSnapshots.get? job.routeSnapshotId = some snapshot ∧
      snapshot.contains attempt.deploymentId = true ∧
      (s.listProviderAttempts attempt.jobId ≠ [] → snapshot.fallbackConsent = true)

/-- Nothing happens to the attempts and the routes. -/
theorem AsksOnce.others (hattempts : s'.attempts = s.attempts)
    (hsnapshots : s'.routeSnapshots = s.routeSnapshots) : AsksOnce s s' where
  evidence id attempt hattempt _ := ⟨attempt, hattempts ▸ hattempt, rfl⟩
  frozen _ _ h := hsnapshots ▸ h
  opens id attempt hnone hsome := by
    rw [hattempts] at hsome
    exact nomatch hnone.symm.trans hsome

/-- An attempt is written over, with evidence that follows. -/
theorem AsksOnce.update (attempt updated : ProviderAttempt)
    (hattempt : s.attempts.get? updated.id = some attempt)
    (hfollows : Follows attempt.acceptance updated.acceptance)
    (hattempts : s'.attempts = s.attempts.set updated.id updated)
    (hsnapshots : s'.routeSnapshots = s.routeSnapshots) : AsksOnce s s' := by
  refine ⟨fun id found hfound hrecorded => ?_, fun _ _ h => hsnapshots ▸ h,
    fun id found hnone hsome => ?_⟩
  · rw [hattempts, OrderedMap.get?_set]
    split
    · next heq =>
      obtain rfl : attempt = found := Option.some.inj (hattempt.symm.trans (heq ▸ hfound))
      refine ⟨updated, rfl, ?_⟩
      rcases hfollows with hpending | hunknown | hsame
      · exact absurd hrecorded (by rw [hpending]; rintro (h | h) <;> cases h)
      · exact absurd hrecorded (by rw [hunknown]; rintro (h | h) <;> cases h)
      · exact hsame
    · exact ⟨found, hfound, rfl⟩
  · rw [hattempts, OrderedMap.get?_set] at hsome
    split at hsome
    · next heq =>
      rw [heq, hattempt] at hnone
      cases hnone
    · cases hnone.symm.trans hsome

/-- An attempt is opened. -/
theorem AsksOnce.open (attempt : ProviderAttempt) (job : GenerationJob) (snapshot : RouteSnapshot)
    (hfresh : s.attempts.get? attempt.id = none)
    (hrejected : ∀ other ∈ s.listProviderAttempts attempt.jobId,
      other.acceptance = .rejected_before_accept)
    (hattempts : s'.attempts = s.attempts.set attempt.id attempt)
    (hsnapshots : ∀ id found, s.routeSnapshots.get? id = some found →
      s'.routeSnapshots.get? id = some found)
    (hjob : s'.generationJobs.get? attempt.jobId = some job)
    (hsnapshot : s'.routeSnapshots.get? job.routeSnapshotId = some snapshot)
    (hcontains : snapshot.contains attempt.deploymentId = true)
    (hconsent : s.listProviderAttempts attempt.jobId ≠ [] → snapshot.fallbackConsent = true) :
    AsksOnce s s' := by
  refine ⟨fun id found hfound _ => ?_, hsnapshots, fun id found hnone hsome => ?_⟩
  · have hne : id ≠ attempt.id := by
      rintro rfl
      exact nomatch hfresh.symm.trans hfound
    exact ⟨found, by rw [hattempts, OrderedMap.get?_set_ne hne, hfound], rfl⟩
  · rw [hattempts, OrderedMap.get?_set] at hsome
    split at hsome
    · obtain rfl := Option.some.inj hsome
      exact ⟨hrejected, job, snapshot, hjob, hsnapshot, hcontains, hconsent⟩
    · exact nomatch hnone.symm.trans hsome

/-- **Every effect asks once.** -/
theorem asksOnce_of_effect (h : AttemptsOnce s) {operation : GenerationOperation}
    (heffect : GenerationEffect s operation s') : AsksOnce s s' := by
  cases heffect with
  | kept => exact .others rfl rfl
  | appended => exact .others rfl rfl
  | started input snapshot job hreservation hopen hsnapshot =>
    refine ⟨fun id attempt hattempt _ => ⟨attempt, hattempt, rfl⟩, fun id found hfound => ?_,
      fun id attempt hnone hsome => nomatch hnone.symm.trans hsome⟩
    have hne : id ≠ snapshot.id := by
      rintro rfl
      exact nomatch hsnapshot.symm.trans hfound
    exact (OrderedMap.get?_set_ne hne).trans hfound
  | checkpointed input opening s₁ s₂ snapshots snapshot job attempt hopens hreserves hsnapshots
      hsnapshot hcontains hnew hid hoperation husage hstatus hfresh hjob hpending =>
    have hnone := h.attempts_of_new hnew
    refine .open attempt job snapshot hfresh ?_ rfl hsnapshots
      ?_ hsnapshot hcontains ?_
    · rw [hjob]
      exact fun other hother => absurd (hnone ▸ hother) List.not_mem_nil
    · rw [hjob]
      exact OrderedMap.get?_set_self
    · rw [hjob]
      exact fun hne => absurd hnone hne
  | opened input job snapshot attempt now hjob hstatus hsnapshot hcontains hprevious hfresh hof
      hpending =>
    obtain ⟨-, hrejected, hconsent⟩ := checkPrevious_eq_ok hprevious
    refine .open attempt { job with status := .running, updatedAt := now } snapshot
      hfresh (hof ▸ hrejected) rfl (fun _ _ h => h) ?_ hsnapshot hcontains
      (hof ▸ hconsent)
    rw [hof]
    exact OrderedMap.get?_set_self
  | accepted input attempt updated hattempt hpending hid =>
    have hstored := (h.attempt _ _ hattempt).1
    exact .update attempt updated (hid ▸ hstored ▸ hattempt) (.inl hpending) rfl rfl
  | settled input attempt updated job updatedJob s₁ costs assets hattempt hjob hstatus hfollows
      hdelivered hid =>
    have hstored := (h.attempt _ _ hattempt).1
    exact .update attempt updated (hid ▸ hstored ▸ hattempt) hfollows rfl rfl
  | received input attempt job s₁ assets now hattempt =>
    have hstored := (h.attempt _ _ hattempt).1
    exact .update attempt { attempt with status := .completed, updatedAt := now }
      (hstored ▸ hattempt) (.inr (.inr rfl)) rfl rfl
  | failed => exact .others rfl rfl
  | refunded => exact .others rfl rfl
  | compensated => exact .others rfl rfl

/-! ## Runs -/

theorem AttemptsOnce.step (payloadHash : GenerationPayload → String)
    {repository : GenerationRepository} (h : AttemptsOnce repository.tables)
    (command : GenerationCommand) : AttemptsOnce (repository.step payloadHash command).tables :=
  h.of_effect (effect_of_step payloadHash repository command)

/-- **Every run asks once**: after any commands a job has two attempts at most, of which all but
one were rejected, and the next command keeps to `AsksOnce`. -/
theorem asksOnce_run (payloadHash : GenerationPayload → String)
    (commands : List GenerationCommand) :
    let repository := runAll (GenerationRepository.step payloadHash) commands .empty
    (∀ jobId, (repository.tables.listProviderAttempts jobId).length ≤ 2 ∧
      ((repository.tables.listProviderAttempts jobId).filter
        (·.acceptance ≠ .rejected_before_accept)).length ≤ 1) ∧
    ∀ command, AsksOnce repository.tables (repository.step payloadHash command).tables := by
  intro repository
  have h : AttemptsOnce repository.tables :=
    runAll_invariant (fun r : GenerationRepository => AttemptsOnce r.tables)
      (fun _ command h => h.step payloadHash command) commands .empty
  exact ⟨fun jobId => ⟨h.two jobId, h.live jobId⟩,
    fun command => asksOnce_of_effect h (effect_of_step payloadHash repository command)⟩

end MeiyeAgent
