import MeiyeAgent.Harness.NoteAccounts

/-!
# Harness/NoteRuns — what a run that returns accounts for

The first images are generated one for each page; the loop of the first evaluation follows, and
what comes after it makes no image and no text.

* `NoteAccounted` — what is returned, by the log of the run.
* `returns_spec` — **every run that returns accounts for its images and revisions**.
* `accountedOnce_iff` — **each page is regenerated once exactly where none is listed twice**.
-/

namespace MeiyeAgent

open Effect Logs

variable {ρ κ : Type}

/-! ## The accounts -/

/-- A page at its selection and in the note. -/
structure PageAccounted (log : List (NoteCall ρ κ)) (page page' : NotePage ρ) : Prop where
  id : page'.id = page.id
  order : page'.order = page.order
  role : page'.pageRole = page.pageRole
  revision : page'.revision = page.revision + rewrites log page.id + regenerations log page.id
  image : Shows (lastImage log page.id) page'.imageAssetId

/-- A page with the first image generated for it, as its schema reads it. -/
def FirstGenerated (intents : ImageIntentSchema ρ) (log : List (NoteCall ρ κ)) (page : NotePage ρ) :
    Prop :=
  ∃ request generation,
    (generations log).find? (·.1.page.id = page.id) = some (request, generation) ∧
      ({ request.page with imageAssetId := some generation.asset.id }).parse intents = some page

/-- The pages the first evaluation lists. -/
def namedPages (isDatetime : String → Bool) (log : List (NoteCall ρ κ)) : List String :=
  ((firstEvaluation isDatetime log).map (·.regenerationPageIds)).getD []

/-- The pages listed with an image side. -/
def namedImages (isDatetime : String → Bool) (log : List (NoteCall ρ κ)) : List String :=
  ((firstEvaluation isDatetime log).map fun evaluation =>
    NotePlanCompiler.imagesAgain evaluation evaluation.regenerationPageIds).getD []

/-- **What a note accounts for**, by the log of its run. -/
structure NoteAccounted (compiler : NotePlanCompiler ρ κ) (selected : NotePlan ρ)
    (log : List (NoteCall ρ κ)) (note : SelectedNote ρ κ) : Prop where
  childRuns : note.childRuns = (generations log).map (·.2.childRun)
  ownedAssets : note.ownedAssets = (generations log).map (·.2.asset)
  pages : List.Forall₂ (PageAccounted log) selected.pages note.version.plan.pages
  receipts : ReceiptsFollow selected log note.version.regenerationReceipts
  unnamed : ∀ page ∈ note.version.plan.pages, page.id ∉ namedPages compiler.isDatetime log →
    FirstGenerated compiler.intents log page

/-! ## The first images -/

theorem applyFutureStepPatches_keeps (page : NotePage ρ) (patches : List String) :
    (applyFutureStepPatchesToNotePage page patches).id = page.id ∧
      (applyFutureStepPatchesToNotePage page patches).order = page.order ∧
      (applyFutureStepPatchesToNotePage page patches).revision = page.revision ∧
      (applyFutureStepPatchesToNotePage page patches).pageRole = page.pageRole := by
  unfold applyFutureStepPatchesToNotePage
  dsimp only
  split <;> exact ⟨rfl, rfl, rfl, rfl⟩

/-- **What the first images of some pages leave in the log.** -/
structure FirstImages (pages : List (NotePage ρ))
    (initial : List (NotePage ρ × NoteGeneration κ)) (events : List (NoteCall ρ κ)) : Prop where
  pages : List.Forall₂ (fun page entry =>
    ∃ patches, entry.1 = applyFutureStepPatchesToNotePage page patches) pages initial
  made : (generations events).map (fun c => (c.1.page, c.2)) = initial
  again : regenerated events = []
  drafts : events.filterMap NoteCall.draft? = []
  evaluations : events.findSome? NoteCall.evaluation? = none

section First

variable {pages more : List (NotePage ρ)} {initial rest : List (NotePage ρ × NoteGeneration κ)}
  {events events' : List (NoteCall ρ κ)}

theorem FirstImages.append (h : FirstImages pages initial events)
    (h' : FirstImages more rest events') :
    FirstImages (pages ++ more) (initial ++ rest) (events ++ events') where
  pages := List.rel_append h.pages h'.pages
  made := by rw [generations_append, List.map_append, h.made, h'.made]
  again := by rw [regenerated_append, h.again, h'.again, List.append_nil]
  drafts := by rw [List.filterMap_append, h.drafts, h'.drafts, List.append_nil]
  evaluations := by rw [List.findSome?_append, h.evaluations, h'.evaluations]; rfl

theorem FirstImages.nil : FirstImages ([] : List (NotePage ρ)) ([] : List (_ × NoteGeneration κ))
    [] :=
  ⟨.nil, rfl, rfl, rfl, rfl⟩

theorem FirstImages.rewrites (h : FirstImages pages initial events) (pageId : String) :
    rewrites events pageId = 0 := by
  rw [MeiyeAgent.rewrites, h.drafts, List.countP_nil]

/-- The ids of the pages images were generated for. -/
theorem FirstImages.ids (h : FirstImages pages initial events) :
    (generations events).map (·.1.page.id) = pages.map (·.id) := by
  have hmade : (generations events).map (·.1.page.id) = initial.map (·.1.id) := by
    rw [← h.made, List.map_map]
    rfl
  rw [hmade]
  have hpages := h.pages
  clear h hmade
  induction hpages with
  | nil => rfl
  | cons hentry _ ih =>
    obtain ⟨patches, hentry⟩ := hentry
    rw [List.map_cons, List.map_cons, ih, hentry, (applyFutureStepPatches_keeps _ _).1]

end First

namespace NotePlanCompiler

variable {compiler : NotePlanCompiler ρ κ} {notePageBound : Int}

theorem progress_spec (pageId : String) (state : NotePageProgress) :
    Calls (compiler.progress pageId state) fun _ events => FirstImages [] [] events := by
  rw [progress]
  split
  · exact .pure .nil
  · refine (calls_askPort _ _).mono ?_ fun _ _ => trivial
    rintro _ _ rfl
    exact ⟨.nil, rfl, rfl, rfl, rfl⟩

theorem resolvePatches_spec (pageId : String) :
    Calls (compiler.resolvePatches pageId) fun _ events => FirstImages [] [] events := by
  rw [resolvePatches]
  split
  · exact .pure .nil
  · refine (calls_askPort _ _).mono ?_ fun _ _ => trivial
    rintro _ _ rfl
    exact ⟨.nil, rfl, rfl, rfl, rfl⟩

/-- **The first image of a page.** -/
theorem generateInitial_spec (page : NotePage ρ) :
    Calls (compiler.generateInitial page) fun entry events =>
      FirstImages [page] [entry] events := by
  refine (progress_spec _ _).bind fun _ before hbefore => ?_
  refine (resolvePatches_spec _).bind fun patches asked hasked => ?_
  refine (calls_askPort _ _).bind ?_
  rintro generation _ rfl
  refine (progress_spec _ _).bind fun _ after hafter => .pure ?_
  rw [List.append_nil]
  exact hbefore.append (hasked.append (FirstImages.append
    (h := ⟨.cons ⟨patches, rfl⟩ .nil, rfl, rfl, rfl, rfl⟩) hafter))

theorem generateAll_spec (pages : List (NotePage ρ)) :
    Calls (pages.mapM compiler.generateInitial) fun initial events =>
      FirstImages pages initial events := by
  refine Emits.mapM (E := fun _ => True)
    (I := fun pages initial events => FirstImages pages initial events) ?_ pages [] [] [] .nil
  intro done initial events page h
  exact (generateInitial_spec page).mono (fun entry more hentry => h.append hentry)
    fun _ _ => trivial

end NotePlanCompiler

/-! ## The plan with its first images -/

/-- A list of keys of their own, filtered for one of them. -/
theorem filter_of_nodup {α : Type} {f : α → String} {a : α} : ∀ {l : List α}, (l.map f).Nodup →
    a ∈ l → l.filter (f · = f a) = [a]
  | b :: l, hnodup, hmem => by
    obtain ⟨hout, hnodup⟩ := List.nodup_cons.mp hnodup
    rcases List.mem_cons.mp hmem with rfl | hmem
    · rw [List.filter_cons_of_pos (p := (f · = f a)) (decide_eq_true rfl),
        List.filter_eq_nil_iff.mpr]
      exact fun c hc hsame => hout (of_decide_eq_true hsame ▸ List.mem_map_of_mem hc)
    · have hne : f b ≠ f a := fun hsame => hout (hsame ▸ List.mem_map_of_mem hmem)
      rw [List.filter_cons_of_neg (by simpa using hne), filter_of_nodup hnodup hmem]

/-- A page of the first plan: its own image is the one generated for it. -/
structure FirstShown (intents : ImageIntentSchema ρ) (events : List (NoteCall ρ κ))
    (page page' : NotePage ρ) : Prop where
  id : page'.id = page.id
  order : page'.order = page.order
  role : page'.pageRole = page.pageRole
  revision : page'.revision = page.revision
  shown : ∃ request generation,
    (generations events).filter (·.1.page.id = page.id) = [(request, generation)] ∧
      ({ request.page with imageAssetId := some generation.asset.id }).parse intents = some page'

section Shown

variable {intents : ImageIntentSchema ρ} {selected plan : NotePlan ρ}
  {initial : List (NotePage ρ × NoteGeneration κ)} {events : List (NoteCall ρ κ)}

/-- **The first plan shows the first images.** -/
theorem FirstImages.shown (h : FirstImages selected.pages initial events)
    (hself : selected.parse intents = some selected)
    (hread : (NotePlanCompiler.NotePlanWithImages selected initial).parse intents = some plan) :
    List.Forall₂ (FirstShown intents events) selected.pages plan.pages := by
  obtain ⟨-, -, hpages, -, hnodup, -⟩ := NotePlan.parse_eq_some hself
  have hfixed := Reading.mapM_self.mp hpages
  have hfirst := (List.forall₂_and_left _ _).mpr ⟨hfixed, h.pages⟩
  have hparsed := Reading.mapM_eq_some.mp (NotePlan.parse_eq_some hread).2.2.1
  rw [NotePlanCompiler.NotePlanWithImages, List.forall₂_map_left_iff] at hparsed
  have hentries := (List.forall₂_and_left _ _).mpr ⟨fun entry (hentry : entry ∈ initial) => hentry,
    hparsed⟩
  refine forall₂_trans ?_ hfirst hentries
  rintro page entry page' ⟨hpage, patches, heffective⟩ ⟨hmem, hread⟩
  obtain ⟨⟨request, generation⟩, hmade, rfl⟩ := List.mem_map.mp (h.made ▸ hmem)
  obtain ⟨hid, horder, hrevision, hrole⟩ := applyFutureStepPatches_keeps page patches
  rw [← heffective] at hid horder hrevision hrole
  obtain ⟨hidRead, horderRead, hrevisionRead, hroleRead, -⟩ := NotePage.parse_keeps hread
  obtain ⟨hidSelf, -⟩ := NotePage.parse_keeps hpage
  have hsame : parseTrimmed page.id = some page'.id := hid ▸ hidRead
  refine ⟨Option.some.inj (hsame.symm.trans hidSelf), horderRead.trans horder,
    hroleRead.trans hrole, hrevisionRead.trans hrevision, request, generation, ?_, hread⟩
  have hkeys : ((generations events).map (·.1.page.id)).Nodup := h.ids ▸ hnodup
  exact hid ▸ filter_of_nodup hkeys hmade

end Shown

/-- The last image of a page of the first plan. -/
theorem FirstShown.shows {intents : ImageIntentSchema ρ} {events : List (NoteCall ρ κ)}
    {page page' : NotePage ρ} (h : FirstShown intents events page page') :
    Shows (lastImage events page.id) page'.imageAssetId := by
  obtain ⟨request, generation, hfilter, hread⟩ := h.shown
  obtain ⟨-, -, -, -, hasset⟩ := NotePage.parse_keeps hread
  obtain ⟨asset, hparsed, hsome⟩ := Option.map_eq_some_iff.mp
    (hasset : (parseTrimmed generation.asset.id).map some = some page'.imageAssetId)
  refine ⟨generation, asset, ?_, hparsed, hsome.symm⟩
  rw [lastImage, hfilter]
  rfl

/-! ## The judge -/

namespace NotePlanCompiler

variable {compiler : NotePlanCompiler ρ κ} {notePageBound : Int} {plan selected : NotePlan ρ}
  {evaluation : NotePlanConsistencyEvaluation}

/-- An evaluation is one call, which makes nothing; so is one that fails. -/
theorem emits_evaluateNote (evaluate : Evaluate ρ) (attempt : NoteEvaluationAttempt)
    (plan : NotePlan ρ) :
    Emits id (compiler.evaluateNote (κ := κ) evaluate attempt plan) (fun evaluation events =>
      ∃ answer, events = [.evaluated attempt plan answer] ∧
        answer.parse compiler.isDatetime = some evaluation) Quiet := by
  refine (emits_askPort _ _).bind (fun answer events hevents => ?_) ?_
  · subst hevents
    refine .check (fun evaluation h => ⟨answer, rfl, orZodError_eq_ok.mp h⟩) fun _ => ⟨rfl, rfl⟩
  · rintro _ rfl
    exact ⟨rfl, rfl⟩

/-- The first check makes the images the evaluation asks for. -/
theorem checkInitial_spec {revision : NoteRevision ρ κ} (h : compiler.Revises plan revision [])
    (hnodup : (plan.pages.map (·.id)).Nodup) :
    Calls (compiler.checkInitial notePageBound selected evaluation revision)
      fun revision' events => compiler.Revises plan revision' events ∧
        LoopCalls evaluation evaluation.regenerationPageIds events := by
  rw [checkInitial, CheckStrategy.check]
  by_cases hnone : evaluation.regenerationPageIds = []
  · simp only [if_pos hnone, List.foldlM_nil, pure_bind]
    rw [hnone]
    exact .pure ⟨h, rfl, fun _ _ => rfl⟩
  · simp only [if_neg hnone, List.foldlM_cons, List.foldlM_nil, bind_pure, bind_assoc, pure_bind]
    refine Calls.bind (regenerateViolations_spec h hnodup) fun revision' events hrevised => ?_
    refine .pure ?_
    rw [List.append_nil]
    exact hrevised

theorem checkFinal_spec (secondEvaluationFailed : Bool)
    (auditSignals : List NotePlanCompilerAuditSignal) :
    Calls (checkFinal (ρ := ρ) (κ := κ) evaluation secondEvaluationFailed auditSignals)
      fun _ events => events = [] := by
  rw [checkFinal, CheckStrategy.check]
  split
  · simp only [List.foldlM_cons, List.foldlM_nil, pure_bind]
    exact .pure rfl
  · simp only [List.foldlM_nil, pure_bind]
    exact .pure rfl

/-- What follows the loop makes no image and no text. -/
theorem judgeAgain_spec (evaluate : Evaluate ρ) (initial : NotePlanConsistencyEvaluation)
    (revision : NoteRevision ρ κ) :
    Calls (compiler.judgeAgain evaluate initial revision) fun _ events => Quiet events := by
  refine .ite (fun _ => .pure ⟨rfl, rfl⟩) fun _ =>
    Calls.bind (Q := fun _ events => Quiet events) ?_ ?_
  · refine (Emits.recover (E := Quiet) ?_ fun _ _ h => h).mono (fun _ _ h => h) fun _ _ => trivial
    rw [map_eq_pure_bind]
    refine (emits_evaluateNote _ _ _).bind ?_ fun _ h => h
    rintro evaluation _ ⟨answer, rfl, -⟩
    exact .pure ⟨rfl, rfl⟩
  · rintro ⟨evaluation, failed⟩ events hevents
    refine (checkFinal_spec _ _).bind ?_
    rintro auditSignals _ rfl
    refine .pure ?_
    rwa [List.append_nil, List.append_nil]

end NotePlanCompiler

/-! ## The note -/

/-- Receipts that their schema reads follow as they did. -/
theorem ReceiptsFollow.read {plan : NotePlan ρ} {events : List (NoteCall ρ κ)}
    {receipts receipts' : List RegenerationReceipt} {intents : ImageIntentSchema ρ}
    (h : ReceiptsFollow plan events receipts) (hself : plan.parse intents = some plan)
    (hread : receipts.mapM RegenerationReceipt.parse = some receipts') :
    ReceiptsFollow plan events receipts' := by
  have hfixed := Reading.mapM_self.mp (NotePlan.parse_eq_some hself).2.2.1
  let key (receipt : RegenerationReceipt) :=
    (receipt.pageId, receipt.fromRevision, receipt.toRevision)
  have hkeys : receipts'.map key = receipts.map key := by
    have hmem := (List.forall₂_and_left _ _).mpr
      ⟨fun receipt (hreceipt : receipt ∈ receipts) => hreceipt, Reading.mapM_eq_some.mp hread⟩
    refine (List.forall₂_eq_eq_eq ▸ List.forall₂_map_left_iff.mpr
      (List.forall₂_map_right_iff.mpr (hmem.imp ?_)) : receipts.map key = receipts'.map key).symm
    rintro receipt receipt' ⟨hreceipt, hparsed⟩
    obtain ⟨-, page, hpage, hid, -⟩ := h.within receipt hreceipt
    obtain ⟨hpageId, hfrom, hto⟩ := RegenerationReceipt.parse_eq_some hparsed
    obtain ⟨hidSelf, -⟩ := NotePage.parse_keeps (hfixed page hpage)
    have hsame : receipt'.pageId = receipt.pageId :=
      Option.some.inj (hpageId.symm.trans (hid ▸ hidSelf))
    rw [Prod.mk.injEq, Prod.mk.injEq]
    exact ⟨hsame.symm, hfrom.symm, hto.symm⟩
  refine ⟨?_, fun receipt' hreceipt' => ?_, ?_⟩
  · have hids : ∀ l : List RegenerationReceipt, l.map (·.pageId) = (l.map key).map (·.1) := by
      intro l
      rw [List.map_map]
      rfl
    rw [hids, hkeys, ← hids, h.each]
  · obtain ⟨receipt, hreceipt, hkey⟩ := List.mem_map.mp (hkeys ▸ List.mem_map_of_mem hreceipt')
    obtain ⟨hid, hrevisions⟩ := Prod.mk.inj hkey
    obtain ⟨hfrom, hto⟩ := Prod.mk.inj hrevisions
    rw [← hid, ← hfrom, ← hto]
    exact h.within receipt hreceipt
  · have hfollow := (List.pairwise_map (f := key)
      (R := fun k k' => k.1 = k'.1 → k.2.2 ≤ k'.2.1)).mpr h.follow
    rw [← hkeys] at hfollow
    exact List.pairwise_map.mp hfollow

section Accounts

variable {compiler : NotePlanCompiler ρ κ} {selected plan final : NotePlan ρ}
  {initial : List (NotePage ρ × NoteGeneration κ)} {first loop log : List (NoteCall ρ κ)}
  {receipts : List RegenerationReceipt} {made : List (NoteGeneration κ)}
  {evaluation : Option NotePlanConsistencyEvaluation} {note : SelectedNote ρ κ}

/-- **The accounts**, by the first images and the loop of a run. -/
theorem NoteAccounted.of_loop (hfirst : FirstImages selected.pages initial first)
    (hshown : List.Forall₂ (FirstShown compiler.intents first) selected.pages plan.pages)
    (hloop : Revised compiler.intents plan final receipts made loop)
    (hgenerations : generations log = generations first ++ generations loop)
    (hagain : regenerated log = regenerated loop)
    (hrewrites : ∀ pageId, rewrites log pageId = rewrites loop pageId)
    (hnamed : ∀ pageId, pageId ∉ namedPages compiler.isDatetime log →
      rewrites loop pageId + regenerations loop pageId = 0)
    (hself : plan.parse compiler.intents = some plan)
    (hversion : PlannedNoteVersion.parse compiler.intents compiler.isDatetime
      { plan := final, evaluation, regenerationReceipts := receipts } = some note.version)
    (hruns : note.childRuns = (initial.map (·.2) ++ made).map (·.childRun))
    (hassets : note.ownedAssets = (initial.map (·.2) ++ made).map (·.asset)) :
    NoteAccounted compiler selected log note := by
  simp only [PlannedNoteVersion.parse, Option.bind_eq_bind, Option.bind_eq_some_iff,
    Option.pure_def, Option.some.injEq] at hversion
  obtain ⟨plan', hplan, evaluation', -, receipts', hreceipts, hversion⟩ := hversion
  obtain rfl : final = plan' := Option.some.inj (hloop.parsed.symm.trans hplan)
  have hpages : note.version.plan = final := hversion ▸ rfl
  have hrows : note.version.regenerationReceipts = receipts' := hversion ▸ rfl
  have hagainOf : ∀ pageId, regenerations log pageId = regenerations loop pageId := by
    intro pageId
    rw [regenerations, regenerations, hagain]
  have hmade : initial.map (·.2) ++ made = (generations log).map (·.2) := by
    rw [hgenerations, List.map_append, hloop.made, ← hfirst.made, List.map_map]
    rfl
  have hlast : ∀ pageId, lastImage log pageId =
      (lastImage loop pageId).or (lastImage first pageId) := by
    intro pageId
    rw [← lastImage_append, lastImage, lastImage, hgenerations, generations_append]
  refine ⟨by rw [hruns, hmade, List.map_map]; rfl, by rw [hassets, hmade, List.map_map]; rfl,
    ?_, ?_, ?_⟩
  · rw [hpages]
    refine forall₂_trans ?_ hshown hloop.pages
    intro page shown page' hpage hrevised
    refine ⟨hrevised.id.trans hpage.id, hrevised.order.trans hpage.order,
      hrevised.role.trans hpage.role, ?_, ?_⟩
    · rw [hrevised.revision, hpage.revision, hpage.id, hrewrites, hagainOf]
    · rw [hlast, ← hpage.id]
      rcases hrevised.image with ⟨hnone, hkept⟩ | hshows
      · rw [hnone, Option.none_or, hkept, hpage.id]
        exact hpage.shows
      · obtain ⟨generation, asset, himage, hparsed, hasset⟩ := hshows
        exact ⟨generation, asset, by rw [himage, Option.some_or], hparsed, hasset⟩
  · rw [hrows]
    refine (hloop.receipts.read hself hreceipts).mono hagain (fun pageId => ?_) fun shown hmem => ?_
    · exact (hrewrites pageId).ge
    · obtain ⟨page, hpage, hsame⟩ := exists_of_forall₂ hshown hmem
      exact ⟨page, hpage, hsame.id.symm, hsame.revision.symm⟩
  · rw [hpages]
    intro page' hmem hout
    obtain ⟨shown, hshownMem, hrevised⟩ := exists_of_forall₂ hloop.pages hmem
    obtain ⟨page, -, hpage⟩ := exists_of_forall₂ hshown hshownMem
    have hsame := hrevised.untouched (hrevised.id ▸ hnamed _ hout)
    subst hsame
    obtain ⟨request, generation, hfilter, hread⟩ := hpage.shown
    refine ⟨request, generation, ?_, hread⟩
    rw [hgenerations, List.find?_append, ← List.head?_filter, hpage.id, hfilter]
    rfl

end Accounts

/-! ## Runs that return -/

namespace NotePlanCompiler

variable {compiler : NotePlanCompiler ρ κ} {notePageBound : Int} {plan selected : NotePlan ρ}
  {styleId : String} {initial : List (NotePage ρ × NoteGeneration κ)}
  {first : List (NoteCall ρ κ)} {note : SelectedNote ρ κ}

/-- The accounts of a run, and the images it has made again. -/
def Accounts (compiler : NotePlanCompiler ρ κ) (selected : NotePlan ρ) (note : SelectedNote ρ κ)
    (log : List (NoteCall ρ κ)) : Prop :=
  NoteAccounted compiler selected log note ∧
    (regenerated log).map (·.1.page.id) = namedImages compiler.isDatetime log

/-- What no judge looks at. -/
theorem accounts_unjudged (hfirst : FirstImages selected.pages initial first)
    (hself : selected.parse compiler.intents = some selected)
    (hplan : (NotePlanWithImages selected initial).parse compiler.intents = some plan)
    (h : compiler.finishUnjudged styleId (initial.map (·.2)) plan = .ok note) :
    compiler.Accounts selected note first := by
  simp only [finishUnjudged, bind_eq_ok, orZodError_eq_ok, pure_eq_ok] at h
  obtain ⟨version, hversion, rfl⟩ := h
  have hread := NotePlan.settles_parse compiler.intents _ _ hplan
  have hnone : firstEvaluation compiler.isDatetime first = none := by
    rw [firstEvaluation, hfirst.evaluations]
    rfl
  refine ⟨.of_loop hfirst (hfirst.shown hself hplan) (.start hread) (List.append_nil _).symm
    hfirst.again hfirst.rewrites (fun _ _ => rfl) hread hversion ?_ ?_, ?_⟩
  · exact congrArg _ (List.append_nil _).symm
  · exact congrArg _ (List.append_nil _).symm
  · rw [hfirst.again, namedImages, hnone]
    rfl

/-- **What a judge looks at**: the loop follows the first evaluation, and nothing is made after. -/
theorem judge_spec {evaluate : Evaluate ρ} (hfirst : FirstImages selected.pages initial first)
    (hself : selected.parse compiler.intents = some selected)
    (hplan : (NotePlanWithImages selected initial).parse compiler.intents = some plan) :
    Calls (compiler.judge notePageBound evaluate styleId selected (initial.map (·.2)) plan)
      fun note events => compiler.Accounts selected note (first ++ events) := by
  have hread := NotePlan.settles_parse compiler.intents _ _ hplan
  obtain ⟨-, -, -, -, hnodup, -⟩ := NotePlan.parse_eq_some hplan
  refine Calls.bind ((emits_evaluateNote _ _ _).mono (fun _ _ h => h) fun _ _ => trivial) ?_
  rintro evaluation _ ⟨answer, rfl, hanswer⟩
  refine (checkInitial_spec (.start hread) hnodup).bind ?_
  rintro revision loop ⟨hloop, hcalls⟩
  refine (judgeAgain_spec _ _ _).bind ?_
  rintro ⟨final, failed, auditSignals⟩ rest hrest
  refine calls_check.mono ?_ fun _ _ => trivial
  rintro note _ ⟨hnote, rfl⟩
  simp only [finishJudged, bind_eq_ok, orZodError_eq_ok, pure_eq_ok] at hnote
  obtain ⟨version, hversion, rfl⟩ := hnote
  rw [List.append_nil]
  have hevaluation : firstEvaluation compiler.isDatetime
      (first ++ ([.evaluated .initial plan answer] ++ (loop ++ rest))) = some evaluation := by
    rw [firstEvaluation, List.findSome?_append, hfirst.evaluations, Option.none_or,
      List.findSome?_append]
    exact hanswer
  have hagain : regenerated (first ++ ([.evaluated .initial plan answer] ++ (loop ++ rest))) =
      regenerated loop := by
    rw [regenerated_append, regenerated_append, regenerated_append, hfirst.again, hrest.regenerated,
      List.append_nil]
    rfl
  refine ⟨.of_loop hfirst (hfirst.shown hself hplan) hloop ?_ hagain ?_ ?_ hread hversion rfl rfl,
    ?_⟩
  · rw [generations_append, generations_append, generations_append, hrest.1, List.append_nil]
    rfl
  · intro pageId
    rw [rewrites_append, rewrites_append, rewrites_append, hfirst.rewrites, hrest.rewrites]
    exact Nat.zero_add _ |>.trans (Nat.zero_add _)
  · intro pageId hout
    rw [namedPages, hevaluation] at hout
    rw [hcalls.texts pageId hout, hcalls.regenerations hout]
  · rw [hagain, hcalls.again, namedImages, hevaluation]
    rfl

/-- **Every run that returns accounts for its images and revisions.** -/
theorem selectAndGenerate_spec (input : NoteSelection compiler.intents) :
    Calls (compiler.selectAndGenerate input) fun note log =>
      ∃ candidate, input.candidates.find? (·.styleId = input.selectedStyleId) = some candidate ∧
        compiler.Accounts candidate.parsed.plan note log := by
  rw [selectAndGenerate]
  split
  · exact .throw trivial
  · next candidate hfind =>
    refine calls_check.bind ?_
    rintro _ _ ⟨-, rfl⟩
    refine (generateAll_spec _).bind fun initial first hfirst => calls_check.bind ?_
    rintro plan _ ⟨hparsed, rfl⟩
    have hplan := parse_of_parsePlan hparsed
    split
    · refine calls_check.mono ?_ fun _ _ => trivial
      rintro note _ ⟨hnote, rfl⟩
      simp only [List.nil_append, List.append_nil]
      exact ⟨candidate, hfind, accounts_unjudged hfirst candidate.parsed.parsed hplan hnote⟩
    · exact .throw trivial
    · refine (judge_spec hfirst candidate.parsed.parsed hplan).mono ?_ fun _ _ => trivial
      exact fun note events h => ⟨candidate, hfind, h⟩

end NotePlanCompiler

/-- **The accounts of a note hold, and no page is regenerated twice, exactly where the first
evaluation lists no page with an image side twice.** -/
theorem noteAccounted_iff (compiler : NotePlanCompiler ρ κ)
    (input : NoteSelection compiler.intents) (note : SelectedNote ρ κ)
    (log : List (NoteCall ρ κ)) (h : compiler.selectAndGenerate input [] = .ok note log) :
    (∃ candidate, input.candidates.find? (·.styleId = input.selectedStyleId) = some candidate ∧
        NoteAccounted compiler candidate.parsed.plan log note ∧
        ∀ pageId, regenerations log pageId ≤ 1) ↔
      (namedImages compiler.isDatetime log).Nodup := by
  obtain ⟨events, hlog, candidate, hfind, haccounts, hagain⟩ :=
    (NotePlanCompiler.selectAndGenerate_spec input []).of_eq_ok h
  obtain rfl : log = events := hlog
  have honce : (∀ pageId, regenerations log pageId ≤ 1) ↔
      (namedImages compiler.isDatetime log).Nodup := by
    rw [← hagain, List.nodup_iff_count_le_one]
    refine forall_congr' fun pageId => ?_
    rw [regenerations, List.count_eq_countP, List.countP_map]
    rfl
  rw [← honce]
  exact ⟨by rintro ⟨_, _, _, h⟩; exact h, fun h => ⟨candidate, hfind, haccounts, h⟩⟩

/-! ### A note of two pages -/

/-- A run that returns with such a log. -/
def returnsWith {α : Type} (x : NoteM ρ κ α) (p : List (NoteCall ρ κ) → Bool) : Bool :=
  match x [] with
  | .ok _ log => p log
  | .error _ _ => false

theorem exists_of_returnsWith {α : Type} {x : NoteM ρ κ α} {p : List (NoteCall ρ κ) → Bool}
    (h : returnsWith x p = true) : ∃ a log, x [] = .ok a log ∧ p log = true := by
  rw [returnsWith] at h
  split at h
  · next a log hx => exact ⟨a, log, hx, h⟩
  · exact nomatch h

def springPage (id : String) (order : Nat) : NotePage Unit where
  id
  order
  revision := 1
  pageRole := .cover
  pagePurpose := .capture_attention
  imageIntent := { purpose := "show", exactText := [], rest := () }
  textBlock := { title := "spring", body := "care", exactText := [] }

def springIntents : ImageIntentSchema Unit := ⟨some, fun _ _ _ => rfl⟩

def springSelection : NoteSelection springIntents where
  candidates := [{
    styleId := "guide"
    styleName := "guide"
    positioning := "plain"
    parsed :=
      { plan :=
          { themeAnchor := "spring"
            style := { id := "guide", name := "guide", positioning := "plain" }
            pages := [springPage "a" 1, springPage "b" 2] }
        parsed := by decide +kernel } }]
  selectedStyleId := "guide"
  notePageBound := 4

/-- A judge that finds nothing wrong with the dimensions, and lists pages. -/
def springCompiler (regenerationPageIds : List String) : NotePlanCompiler Unit String where
  intents := springIntents
  isDatetime _ := true
  ports :=
    { draftPage := fun _ request => .ok request.page.textBlock
      generate := fun n _ => .ok
        { asset := { id := s!"image-{n}", rest := "png" }, childRun := "run" }
      evaluate := some fun _ _ _ => .ok
        { evaluatedAt := "2026-04-01T00:00:00Z"
          dimensions := notePlanConsistencyDimensions.map fun dimension =>
            { dimension, passed := true, reason := "well", pageIds := [] }
          regenerationPageIds } }

theorem noteAccounted_spring : ∃ note log,
    (springCompiler ["b"]).selectAndGenerate springSelection [] = .ok note log ∧
      ∃ candidate, springSelection.candidates.find? (·.styleId = springSelection.selectedStyleId) =
          some candidate ∧
        NoteAccounted (springCompiler ["b"]) candidate.parsed.plan log note ∧
        ∀ pageId, regenerations log pageId ≤ 1 := by
  obtain ⟨note, log, hrun, hnodup⟩ := exists_of_returnsWith
    (x := (springCompiler ["b"]).selectAndGenerate springSelection)
    (p := fun log => (namedImages (springCompiler ["b"]).isDatetime log).Nodup) (by decide +kernel)
  exact ⟨note, log, hrun,
    (noteAccounted_iff (springCompiler ["b"]) springSelection note log hrun).mpr
      (of_decide_eq_true hnodup)⟩

/-- A page listed twice is paid for twice. -/
theorem not_noteAccounted : ¬ ∀ (compiler : NotePlanCompiler Unit String)
    (input : NoteSelection compiler.intents) (note : SelectedNote Unit String)
    (log : List (NoteCall Unit String)), compiler.selectAndGenerate input [] = .ok note log →
      ∃ candidate, input.candidates.find? (·.styleId = input.selectedStyleId) = some candidate ∧
        NoteAccounted compiler candidate.parsed.plan log note ∧
        ∀ pageId, regenerations log pageId ≤ 1 := by
  intro h
  obtain ⟨note, log, hrun, htwice⟩ := exists_of_returnsWith
    (x := (springCompiler ["b", "b"]).selectAndGenerate springSelection)
    (p := fun log => regenerations log "b" = 2) (by decide +kernel)
  obtain ⟨_, _, _, honce⟩ := h _ _ note log hrun
  have hle := honce "b"
  have heq : regenerations log "b" = 2 := of_decide_eq_true htwice
  omega

end MeiyeAgent
