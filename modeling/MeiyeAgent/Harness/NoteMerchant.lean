import MeiyeAgent.Harness.NoteRuns

/-!
# Harness/NoteMerchant — pages a merchant has generated again

A merchant picks pages of a finished note, one after another; each call generates one image and
answers with the version the next call is given.

* `PlannedNoteVersion.settles_parse` — a version that was read is read as itself.
* `merchantAccounted` — **one image and one receipt for each page picked**, the rest as it was.
-/

namespace MeiyeAgent

open Effect Logs

variable {ρ κ : Type} {intents : ImageIntentSchema ρ} {isDatetime : String → Bool}

/-! ## Versions that were read -/

theorem NoteConsistencyFinding.settles_parse : Reading.Settles NoteConsistencyFinding.parse := by
  intro finding parsed h
  simp only [parse, Option.bind_eq_bind, Option.bind_eq_some_iff, Option.pure_def,
    Option.some.injEq] at h
  obtain ⟨reason, hreason, pageIds, hids, rfl⟩ := h
  simp only [parse, parseTrimmed_idem hreason, settles_parseTrimmed.list _ _ hids,
    Option.bind_eq_bind, Option.pure_def, Option.bind_some]

theorem NotePlanConsistencyEvaluation.settles_parse (isDatetime : String → Bool) :
    Reading.Settles (NotePlanConsistencyEvaluation.parse isDatetime) := by
  intro evaluation parsed h
  simp only [parse, Option.bind_eq_bind, Option.bind_eq_some_iff] at h
  obtain ⟨dimensions, hdimensions, pageIds, hids, h⟩ := h
  split at h
  · next hsound =>
    obtain rfl := Option.some.inj h
    simp only [parse, NoteConsistencyFinding.settles_parse.list _ _ hdimensions,
      settles_parseTrimmed.list _ _ hids, Option.bind_eq_bind, Option.bind_some]
    exact if_pos hsound
  · exact nomatch h

theorem RegenerationReceipt.settles_parse : Reading.Settles RegenerationReceipt.parse := by
  intro receipt parsed h
  simp only [parse, Option.bind_eq_bind, Option.bind_eq_some_iff] at h
  obtain ⟨pageId, hid, auditRef, hauditRef, h⟩ := h
  split at h
  · next hsound =>
    obtain rfl := Option.some.inj h
    simp only [parse, parseTrimmed_idem hid, parseTrimmed_idem hauditRef, Option.bind_eq_bind,
      Option.bind_some]
    exact if_pos hsound
  · cases h

section Version

variable {version parsed : PlannedNoteVersion ρ}

theorem PlannedNoteVersion.parse_eq_some (h : version.parse intents isDatetime = some parsed) :
    version.plan.parse intents = some parsed.plan ∧
      version.evaluation.mapM (NotePlanConsistencyEvaluation.parse isDatetime) =
        some parsed.evaluation ∧
      version.regenerationReceipts.mapM RegenerationReceipt.parse =
        some parsed.regenerationReceipts := by
  simp only [parse, Option.bind_eq_bind, Option.bind_eq_some_iff, Option.pure_def,
    Option.some.injEq] at h
  obtain ⟨plan, hplan, evaluation, hevaluation, receipts, hreceipts, rfl⟩ := h
  exact ⟨hplan, hevaluation, hreceipts⟩

theorem PlannedNoteVersion.settles_parse (intents : ImageIntentSchema ρ)
    (isDatetime : String → Bool) :
    Reading.Settles (PlannedNoteVersion.parse intents isDatetime) := by
  intro version parsed h
  obtain ⟨hplan, hevaluation, hreceipts⟩ := parse_eq_some h
  simp only [parse, NotePlan.settles_parse intents _ _ hplan,
    (NotePlanConsistencyEvaluation.settles_parse isDatetime).option _ _ hevaluation,
    RegenerationReceipt.settles_parse.list _ _ hreceipts, Option.bind_eq_bind, Option.pure_def,
    Option.bind_some]

end Version

/-- A version as `imageTextNoteVersionSchema` has read it. -/
structure ParsedNoteVersion (intents : ImageIntentSchema ρ) (isDatetime : String → Bool) where
  version : PlannedNoteVersion ρ
  parsed : version.parse intents isDatetime = some version

/-! ## One page -/

def missingPage : NotePlanError := .refused "The requested NotePlan page does not exist."

/-- The page's next revision, with its image, and the receipt behind the others. -/
def PlannedNoteVersion.regenerateNotePlanPage (intents : ImageIntentSchema ρ)
    (isDatetime : String → Bool) (version : PlannedNoteVersion ρ)
    (pageId imageAssetId auditRef : String) : Except NotePlanError (PlannedNoteVersion ρ) := do
  let current ← orZodError (version.parse intents isDatetime)
  match current.plan.pages.find? (·.id = pageId) with
  | none => throw missingPage
  | some target =>
    let receipt : RegenerationReceipt :=
      { pageId := target.id
        fromRevision := target.revision
        toRevision := target.revision + 1
        reason := .merchant_request
        auditRef }
    orZodError <| PlannedNoteVersion.parse intents isDatetime
      { current with
        plan := current.plan.updatePage pageId fun page =>
          { page with revision := page.revision + 1, imageAssetId := some imageAssetId }
        regenerationReceipts := current.regenerationReceipts ++ [receipt] }

structure MerchantPage (ρ κ : Type) where
  auditSignals : List NotePlanCompilerAuditSignal
  childRuns : List κ
  ownedAssets : List (NoteOwnedAsset κ)
  selectedStyleId : String
  version : PlannedNoteVersion ρ

namespace NotePlanCompiler

def regenerateMerchantPage (compiler : NotePlanCompiler ρ κ) (version : PlannedNoteVersion ρ)
    (pageId : String) : NoteM ρ κ (MerchantPage ρ κ) := do
  let current ← check (orZodError (version.parse compiler.intents compiler.isDatetime))
  match current.plan.pages.find? (·.id = pageId) with
  | none => throw missingPage
  | some page =>
    compiler.progress page.id .running
    let request : NoteImageRequest ρ := { page, reason := some .merchant_request }
    let generation ← askPort (compiler.ports.generate · request) (.generated request)
    let auditRef := s!"note-page-merchant-regeneration:{page.id}:r{page.revision + 1}"
    let version ← check (current.regenerateNotePlanPage compiler.intents compiler.isDatetime page.id
      generation.asset.id auditRef)
    compiler.progress page.id .success
    let payload ← check (orZodError (NotePageRegeneratedPayload.parse
      (.image auditRef page.id .user_selection)))
    return {
      auditSignals := [.note_page_regenerated payload]
      childRuns := [generation.childRun]
      ownedAssets := [generation.asset]
      selectedStyleId := current.plan.style.id
      version }

/-- Pages picked one after another, each call given the version of the last. -/
def regenerateMerchantPages (compiler : NotePlanCompiler ρ κ) (version : PlannedNoteVersion ρ)
    (pageIds : List String) : NoteM ρ κ (PlannedNoteVersion ρ) :=
  pageIds.foldlM (fun version pageId => do
    let page ← compiler.regenerateMerchantPage version pageId
    return page.version) version

end NotePlanCompiler

/-! ## What is accounted for -/

/-- **What picking pages leaves of a version**: every image made is one made again, no text is
rewritten, and the new receipts are of one image each. -/
structure MerchantAccounted (start final : PlannedNoteVersion ρ) (pageIds : List String)
    (log : List (NoteCall ρ κ)) : Prop where
  images : (generations log).map (·.1.page.id) = pageIds
  again : regenerated log = generations log
  texts : ∀ pageId, rewrites log pageId = 0
  pages : List.Forall₂ (PageRevised log) start.plan.pages final.plan.pages
  receipts : ∃ receipts, final.regenerationReceipts = start.regenerationReceipts ++ receipts ∧
    ReceiptsFollow start.plan log receipts ∧ ∀ receipt ∈ receipts, receipt.imagePoints = 1
  evaluation : final.evaluation = start.evaluation

/-- What the calls so far have left, read as itself. -/
structure MerchantRevised (intents : ImageIntentSchema ρ) (isDatetime : String → Bool)
    (start version : PlannedNoteVersion ρ) (pageIds : List String) (events : List (NoteCall ρ κ)) :
    Prop where
  parsed : version.parse intents isDatetime = some version
  images : (generations events).map (·.1.page.id) = pageIds
  drafts : events.filterMap NoteCall.draft? = []
  revised : ∃ receipts made,
    version.regenerationReceipts = start.regenerationReceipts ++ receipts ∧
      Revised intents start.plan version.plan receipts made events
  evaluation : version.evaluation = start.evaluation

theorem PageRevised.quiet {events more : List (NoteCall ρ κ)} {page page' : NotePage ρ}
    (h : PageRevised events page page') (hmore : Quiet more) :
    PageRevised (events ++ more) page page' where
  id := h.id
  order := h.order
  role := h.role
  revision := by
    rw [rewrites_append, regenerations_append, hmore.rewrites, hmore.regenerations]
    exact h.revision
  image := by
    rw [lastImage_append, hmore.lastImage]
    exact h.image
  untouched := by
    rw [rewrites_append, regenerations_append, hmore.rewrites, hmore.regenerations]
    exact h.untouched

/-- Calls that make nothing leave what was revised as it is. -/
theorem MerchantRevised.quiet {start version : PlannedNoteVersion ρ} {pageIds : List String}
    {events more : List (NoteCall ρ κ)}
    (h : MerchantRevised intents isDatetime start version pageIds events) (hmore : Quiet more) :
    MerchantRevised intents isDatetime start version pageIds (events ++ more) where
  parsed := h.parsed
  images := by rw [generations_append, hmore.1, List.append_nil]; exact h.images
  drafts := by rw [List.filterMap_append, h.drafts, hmore.2, List.append_nil]
  revised := by
    obtain ⟨receipts, made, hrows, hrevised⟩ := h.revised
    have hagain : regenerated (events ++ more) = regenerated events := by
      rw [regenerated_append, hmore.regenerated, List.append_nil]
    have hmade : generations (events ++ more) = generations events := by
      rw [generations_append, hmore.1, List.append_nil]
    refine ⟨receipts, made, hrows, hrevised.parsed, hrevised.pages.imp fun _ _ hpage =>
      hpage.quiet hmore, hmade ▸ hrevised.made, ?_, ?_⟩
    · rw [hagain, hmade, hrevised.again]
    · refine hrevised.receipts.mono hagain (fun _ => ?_) fun page hpage => ⟨page, hpage, rfl, rfl⟩
      rw [rewrites_append]
      exact Nat.le_add_right _ _
  evaluation := h.evaluation

/-- **A page is picked**: its next revision is read with its receipt. -/
theorem MerchantRevised.pick {start version version' : PlannedNoteVersion ρ} {pageIds : List String}
    {events : List (NoteCall ρ κ)} {auditRef : String}
    (h : MerchantRevised intents isDatetime start version pageIds events)
    (request : NoteImageRequest ρ) (generation : NoteGeneration κ)
    (hstart : start.plan.parse intents = some start.plan) (hreason : request.reason ≠ none)
    (hfind : version.plan.pages.find? (·.id = request.page.id) = some request.page)
    (hok : version.regenerateNotePlanPage intents isDatetime request.page.id generation.asset.id
      auditRef = .ok version') :
    MerchantRevised intents isDatetime start version' (pageIds ++ [request.page.id])
      (events ++ [.generated request generation]) := by
  rw [PlannedNoteVersion.regenerateNotePlanPage, h.parsed] at hok
  simp only [bind_eq_ok, orZodError_eq_ok, Option.some.injEq] at hok
  obtain ⟨_, rfl, hok⟩ := hok
  rw [hfind] at hok
  have hread := orZodError_eq_ok.mp hok
  obtain ⟨hplan, hevaluation, hrows⟩ := PlannedNoteVersion.parse_eq_some hread
  obtain ⟨-, hevaluationSelf, hrowsSelf⟩ := PlannedNoteVersion.parse_eq_some h.parsed
  obtain ⟨rows, hkept, new, hnew, hjoin⟩ := Reading.mapM_append.mp hrows
  obtain rfl : rows = version.regenerationReceipts := Option.some.inj (hkept.symm.trans hrowsSelf)
  obtain ⟨receipt, hreceipt, rfl⟩ := Reading.mapM_singleton.mp hnew
  obtain ⟨hid, hfrom, hto⟩ := RegenerationReceipt.parse_eq_some hreceipt
  obtain ⟨receipts, made, hbefore, hrevised⟩ := h.revised
  have hmem := List.mem_of_find?_eq_some hfind
  have hpage := Reading.mapM_self.mp (NotePlan.parse_eq_some hrevised.parsed).2.2.1 _ hmem
  obtain ⟨hidSelf, -⟩ := NotePage.parse_keeps hpage
  obtain ⟨-, -, -, -, hnodup, -⟩ := NotePlan.parse_eq_some hstart
  refine ⟨PlannedNoteVersion.settles_parse _ _ _ _ hread, ?_, ?_, ⟨receipts ++ [receipt],
    made ++ [generation], ?_, ?_⟩, ?_⟩
  · rw [generations_append, List.map_append, h.images]
    rfl
  · rw [List.filterMap_append, h.drafts]
    rfl
  · rw [← hjoin, hbefore, List.append_assoc]
  · exact hrevised.regenerate hnodup hmem hreason (Option.some.inj (hid.symm.trans hidSelf)) hfrom
      hto hplan
  · exact (Option.some.inj (hevaluation.symm.trans hevaluationSelf)).trans h.evaluation

namespace NotePlanCompiler

variable {compiler : NotePlanCompiler ρ κ} {start version : PlannedNoteVersion ρ}
  {pageIds : List String} {events : List (NoteCall ρ κ)}

theorem regenerateMerchantPage_spec (hstart : start.plan.parse compiler.intents = some start.plan)
    (h : MerchantRevised compiler.intents compiler.isDatetime start version pageIds events)
    (pageId : String) :
    Calls (compiler.regenerateMerchantPage version pageId) fun page more =>
      MerchantRevised compiler.intents compiler.isDatetime start page.version (pageIds ++ [pageId])
        (events ++ more) := by
  refine calls_check.bind ?_
  rintro current _ ⟨hcurrent, rfl⟩
  obtain rfl : version = current :=
    Option.some.inj (h.parsed.symm.trans (orZodError_eq_ok.mp hcurrent))
  split
  · exact .throw trivial
  · next page hfind =>
    obtain rfl : page.id = pageId := of_decide_eq_true (List.find?_some hfind :)
    refine (progress_spec _ _).bind fun _ before hbefore => (calls_askPort _ _).bind ?_
    rintro generation _ rfl
    refine calls_check.bind ?_
    rintro version' _ ⟨hversion, rfl⟩
    refine (progress_spec _ _).bind fun _ after hafter => calls_check.bind ?_
    rintro payload _ ⟨-, rfl⟩
    refine .pure ?_
    have hpicked := (h.quiet ⟨List.map_eq_nil_iff.mp hbefore.made, hbefore.drafts⟩).pick
      { page, reason := some .merchant_request } generation hstart (Option.some_ne_none _) hfind
      hversion
    simpa [List.append_assoc] using
      hpicked.quiet ⟨List.map_eq_nil_iff.mp hafter.made, hafter.drafts⟩

end NotePlanCompiler

/-- **One image and one receipt for each page picked**, in every run that returns: the pages keep
their ids, order and roles, and those that were not picked stay as they were. -/
theorem merchantAccounted (compiler : NotePlanCompiler ρ κ)
    (start : ParsedNoteVersion compiler.intents compiler.isDatetime) (pageIds : List String) :
    Calls (compiler.regenerateMerchantPages start.version pageIds) fun final log =>
      MerchantAccounted start.version final pageIds log := by
  obtain ⟨start, hparsed⟩ := start
  obtain ⟨hplan, -⟩ := PlannedNoteVersion.parse_eq_some hparsed
  have hstep (done : List String) (version : PlannedNoteVersion ρ) (events : List (NoteCall ρ κ))
      (pageId : String)
      (h : MerchantRevised compiler.intents compiler.isDatetime start version done events) :
      Calls (compiler.regenerateMerchantPage version pageId >>= fun page => pure page.version)
        fun version' more => MerchantRevised compiler.intents compiler.isDatetime start version'
          (done ++ [pageId]) (events ++ more) :=
    Calls.bind (NotePlanCompiler.regenerateMerchantPage_spec hplan h pageId)
      fun page more hpage => .pure (by rwa [List.append_nil])
  have hrun := Emits.foldlM (E := fun _ => True)
    (I := fun done version events =>
      MerchantRevised compiler.intents compiler.isDatetime start version done events)
    hstep pageIds [] start [] ⟨hparsed, rfl, rfl, ⟨[], [], (List.append_nil _).symm, .start hplan⟩, rfl⟩
  refine hrun.mono (fun final log h => ?_) fun _ _ => trivial
  have hdrafts : log.filterMap NoteCall.draft? = [] := h.drafts
  obtain ⟨receipts, made, hrows, hrevised⟩ := h.revised
  obtain ⟨-, -, hread⟩ := PlannedNoteVersion.parse_eq_some h.parsed
  have hpoints : ∀ receipt ∈ receipts, receipt.imagePoints = 1 := by
    intro receipt hreceipt
    have hmem : receipt ∈ final.regenerationReceipts := hrows ▸ List.mem_append_right _ hreceipt
    exact RegenerationReceipt.imagePoints_of_parse (Reading.mapM_self.mp hread receipt hmem)
  exact {
    images := h.images
    again := hrevised.again
    texts := fun pageId => by rw [rewrites, hdrafts, List.countP_nil]
    pages := hrevised.pages
    receipts := ⟨receipts, hrows, hrevised.receipts, hpoints⟩
    evaluation := h.evaluation }

end MeiyeAgent
