import MeiyeAgent.Harness.NotePlans
import MeiyeAgent.Machinery.Logs

/-!
# Harness/NoteGeneration — one note, generated page by page and corrected once

A style is selected; each of its pages gets an image.  A judge then says which pages fail, and each
of these is rewritten, or gets a new image, or both.  The ports answer each call as they like, or
throw; the calls they have answered are logged.

* `notePageRegenerationPlan` — what an evaluation asks of a page.
* `regenerateViolations` — the loop over the pages an evaluation lists.
* `selectAndGenerate` — the whole of it.
-/

namespace MeiyeAgent

open Effect

variable {ρ κ α β ν : Type}

/-! ## Ports -/

inductive NotePlanError
  | refused (message : String)
  | schema
  | structuredNode (message : String)
  deriving DecidableEq

/-- A `ZodError`, where a schema refuses. -/
def orZodError : Option α → Except NotePlanError α
  | some a => .ok a
  | none => .error .schema

structure NoteImageRequest (ρ : Type) where
  page : NotePage ρ
  reason : Option RegenerationReason := none
  evaluationReason : Option String := none
  deriving DecidableEq

structure NoteOwnedAsset (κ : Type) where
  id : String
  rest : κ
  deriving DecidableEq

structure NoteGeneration (κ : Type) where
  asset : NoteOwnedAsset κ
  childRun : κ
  deriving DecidableEq

structure NoteDraftRequest (ρ : Type) where
  page : NotePage ρ
  previousTextBlock : Option NotePlanTextBlock
  style : NotePlanStyle
  themeAnchor : String
  consistencyFailure : String
  deriving DecidableEq

inductive NoteEvaluationAttempt
  | initial | after_regeneration
  deriving DecidableEq

inductive NotePageProgress
  | running | success
  deriving DecidableEq

/-- A call a port has answered. -/
inductive NoteCall (ρ κ : Type)
  | progressed (pageId : String) (state : NotePageProgress)
  | patched (pageId : String) (instructions : List String)
  | generated (request : NoteImageRequest ρ) (generation : NoteGeneration κ)
  | drafted (request : NoteDraftRequest ρ) (textBlock : NotePlanTextBlock)
  | evaluated (attempt : NoteEvaluationAttempt) (plan : NotePlan ρ)
      (evaluation : NotePlanConsistencyEvaluation)

/-- What the ports answer, by the number of calls answered before. -/
structure NotePorts (ρ κ : Type) where
  draftPage : Nat → NoteDraftRequest ρ → Except NotePlanError NotePlanTextBlock
  generate : Nat → NoteImageRequest ρ → Except NotePlanError (NoteGeneration κ)
  evaluate : Option (Nat → NoteEvaluationAttempt → NotePlan ρ →
    Except NotePlanError NotePlanConsistencyEvaluation) := none
  onPageProgress : Option (Nat → String → NotePageProgress → Except NotePlanError Unit) := none
  resolveFutureStepPatches : Option (Nat → String → Except NotePlanError (List String)) := none

/-- An operation that calls the ports. -/
abbrev NoteM (ρ κ : Type) := EStateM NotePlanError (List (NoteCall ρ κ))

def askPort (answer : Nat → Except NotePlanError α) (call : α → NoteCall ρ κ) : NoteM ρ κ α := do
  let log ← get
  let a ← check (answer log.length)
  modify (· ++ [call a])
  return a

/-! ## Audit signals -/

inductive NotePageRegeneratedTrigger
  | user_selection | check_violation
  deriving DecidableEq

/-- `notePageRegeneratedPayloadSchema`: no image points for a text, one for an image. -/
inductive NotePageRegeneratedPayload
  | text (auditRef pageId : String) (trigger : NotePageRegeneratedTrigger) (reason : String)
  | image (auditRef pageId : String) (trigger : NotePageRegeneratedTrigger)
  deriving DecidableEq

def NotePageRegeneratedPayload.parse :
    NotePageRegeneratedPayload → Option NotePageRegeneratedPayload
  | .text auditRef pageId trigger reason => do
    let auditRef ← parseTrimmed auditRef
    let pageId ← parseTrimmed pageId
    let reason ← parseTrimmed reason
    return .text auditRef pageId trigger reason
  | .image auditRef pageId trigger => do
    let auditRef ← parseTrimmed auditRef
    let pageId ← parseTrimmed pageId
    return .image auditRef pageId trigger

inductive CheckStrategy
  | block | warn | detect
  deriving DecidableEq

inductive CheckStatus
  | passed | blocked | detected | warned
  deriving DecidableEq

inductive NotePlanCompilerAuditSignal
  | note_style_selected (styleId : String)
  | note_consistency_unavailable
  | note_consistency_evaluated (attempt : NoteEvaluationAttempt)
      (evaluation : NotePlanConsistencyEvaluation) (status : CheckStatus) (strategy : CheckStrategy)
      (secondEvaluationFailed : Bool)
  | note_page_regenerated (payload : NotePageRegeneratedPayload)
  deriving DecidableEq

/-! ## Checks -/

structure CheckResult (ν : Type) where
  allowed : Bool
  status : CheckStatus
  violations : List ν

def CheckStrategy.violated : CheckStrategy → CheckStatus
  | .block => .blocked | .detect => .detected | .warn => .warned

/-- `check`: every violation is handled, `b` being what its handler has left. -/
def CheckStrategy.check (strategy : CheckStrategy) (violations : List ν)
    (onViolation : β → ν → NoteM ρ κ β) (b : β) : NoteM ρ κ (CheckResult ν × β) := do
  let b ← violations.foldlM onViolation b
  let status := if violations = [] then .passed else strategy.violated
  return ({ allowed := strategy ≠ .block ∨ violations = [], status, violations }, b)

/-! ## What an evaluation asks of a page -/

inductive RegenerationSide
  | text | image | both
  deriving DecidableEq

structure NotePageRegeneration where
  reason : String
  side : RegenerationSide
  textReason : Option String
  imageReason : Option String

/-- `TEXT_SIDE_CONSISTENCY_DIMENSIONS`. -/
def NotePlanConsistencyDimension.isTextSide (dimension : NotePlanConsistencyDimension) : Bool :=
  dimension ∈ [theme_continuity, non_repetition, role_coverage]

def joinReasons (findings : List NoteConsistencyFinding) : String :=
  "；".intercalate (findings.map (·.reason))

def notePageRegenerationPlan (evaluation : NotePlanConsistencyEvaluation) (pageId : String) :
    NotePageRegeneration :=
  let failing := evaluation.dimensions.filter fun finding =>
    !finding.passed ∧ (finding.pageIds = [] ∨ pageId ∈ finding.pageIds)
  let textFailures := failing.filter (·.dimension.isTextSide)
  let imageFailures := failing.filter (!·.dimension.isTextSide)
  { reason := (truthy (some (joinReasons failing))).getD "整篇一致性仍需调整。"
    side :=
      if textFailures ≠ [] ∧ imageFailures = [] then .text
      else if textFailures ≠ [] then .both else .image
    textReason := truthy (some (joinReasons textFailures))
    imageReason := truthy (some (joinReasons imageFailures)) }

/-! ## The compiler -/

inductive NotePlanEnhancementJudgeState
  | configured | unconfigured
  deriving DecidableEq

structure NotePlanCompiler (ρ κ : Type) where
  intents : ImageIntentSchema ρ
  isDatetime : String → Bool
  ports : NotePorts ρ κ
  enhancementJudge : NotePlanEnhancementJudgeState := .configured

structure NoteStyleCandidate (intents : ImageIntentSchema ρ) where
  styleId : String
  styleName : String
  positioning : String
  parsed : ParsedNotePlan intents

structure NoteSelection (intents : ImageIntentSchema ρ) where
  candidates : List (NoteStyleCandidate intents)
  selectedStyleId : String
  notePageBound : Int

inductive NotePartialReason
  | consistency_remained_incomplete | second_evaluation_failed
  deriving DecidableEq

structure NotePlanPartialDelivery where
  unresolvedPageIds : List String
  reason : NotePartialReason
  deriving DecidableEq

structure SelectedNote (ρ κ : Type) where
  auditSignals : List NotePlanCompilerAuditSignal
  childRuns : List κ
  ownedAssets : List (NoteOwnedAsset κ)
  selectedStyleId : String
  partialDelivery : Option NotePlanPartialDelivery := none
  version : PlannedNoteVersion ρ

def assertNotePlanWithinBound (plan : NotePlan ρ) (notePageBound : Int) :
    Except NotePlanError Unit := do
  if !isSafeInteger notePageBound ∨ notePageBound < 1 then
    throw (.refused "图文笔记页数上界无效，请重新选择配方后再试。")
  if notePageBound < plan.pages.length then
    throw (.refused s!"本次图文笔记计划为 {plan.pages.length} 页，超过配方声明的 {notePageBound} 页上界，请调整需求后重试。")

/-- The instructions of the patches, as one text. -/
def joinInstructions (patches : List String) : String :=
  "；".intercalate ((patches.map Text.trim).filter (· ≠ ""))

def applyFutureStepPatchesToNotePage (page : NotePage ρ) (patches : List String) :
    NotePage ρ :=
  let joined := joinInstructions patches
  if joined = "" then page
  else
    { page with
      textBlock :=
        { page.textBlock with body := s!"{page.textBlock.body}\n\n【中途修正】{joined}" }
      imageIntent :=
        { page.imageIntent with purpose := s!"{page.imageIntent.purpose}。商家中途修正：{joined}" } }

/-- `pages.map(candidate => candidate.id === id ? … : candidate)`. -/
def NotePlan.updatePage (plan : NotePlan ρ) (id : String)
    (update : NotePage ρ → NotePage ρ) : NotePlan ρ :=
  { plan with pages := plan.pages.map fun page => if page.id = id then update page else page }

/-- `plan.pages[index - 1]?.textBlock`. -/
def NotePlan.previousTextBlock (plan : NotePlan ρ) (id : String) : Option NotePlanTextBlock :=
  match plan.pages.findIdx (·.id = id) with
  | 0 => none
  | index + 1 => (plan.pages[index]?).map (·.textBlock)

/-- What the loop over the violations changes. -/
structure NoteRevision (ρ κ : Type) where
  plan : NotePlan ρ
  regenerationReceipts : List RegenerationReceipt := []
  regenerated : List (NoteGeneration κ) := []
  textRewrites : Nat := 0
  auditSignals : List NotePlanCompilerAuditSignal

namespace NotePlanCompiler

variable (compiler : NotePlanCompiler ρ κ) (notePageBound : Int)

/-- `notePlanSchema.parse`, and its bound. -/
def parsePlan (plan : NotePlan ρ) : Except NotePlanError (NotePlan ρ) := do
  let plan ← orZodError (plan.parse compiler.intents)
  assertNotePlanWithinBound plan notePageBound
  return plan

def progress (pageId : String) (state : NotePageProgress) : NoteM ρ κ Unit :=
  match compiler.ports.onPageProgress with
  | none => return ()
  | some answer => askPort (answer · pageId state) fun _ => .progressed pageId state

def resolvePatches (pageId : String) : NoteM ρ κ (List String) :=
  match compiler.ports.resolveFutureStepPatches with
  | none => return []
  | some answer => askPort (answer · pageId) (.patched pageId)

/-! ### The first images -/

/-- The first image of a page, the page carrying its patches. -/
def generateInitial (page : NotePage ρ) : NoteM ρ κ (NotePage ρ × NoteGeneration κ) := do
  compiler.progress page.id .running
  let patches ← compiler.resolvePatches page.id
  let effectivePage := applyFutureStepPatchesToNotePage page patches
  let request : NoteImageRequest ρ :=
    { page := effectivePage
      evaluationReason := if patches = [] then none else some (joinInstructions patches) }
  let generation ← askPort (compiler.ports.generate · request) (.generated request)
  compiler.progress page.id .success
  return (effectivePage, generation)

/-! ### Regenerations -/

/-- A new text of a page, its exact texts kept. -/
def rewritePage (selected : NotePlan ρ) (page : NotePage ρ)
    (regeneration : NotePageRegeneration) (revision : NoteRevision ρ κ) :
    NoteM ρ κ (NoteRevision ρ κ) := do
  let failure := regeneration.textReason.getD regeneration.reason
  let request : NoteDraftRequest ρ :=
    { page
      previousTextBlock := revision.plan.previousTextBlock page.id
      style := selected.style
      themeAnchor := revision.plan.themeAnchor
      consistencyFailure := failure }
  let rewritten ← askPort (compiler.ports.draftPage · request) (.drafted request)
  let plan ← check <| compiler.parsePlan notePageBound <|
    revision.plan.updatePage page.id fun candidate =>
      { candidate with
        revision := candidate.revision + 1
        textBlock := { rewritten with exactText := candidate.textBlock.exactText } }
  let payload ← check <| orZodError <| NotePageRegeneratedPayload.parse <|
    .text s!"note-page-rewrite:{page.id}:r{page.revision + 1}" page.id .check_violation failure
  return { revision with
    plan
    textRewrites := revision.textRewrites + 1
    auditSignals := revision.auditSignals ++ [.note_page_regenerated payload] }

/-- A new image of a page, and its receipt. -/
def regenerateImage (target : NotePage ρ) (regeneration : NotePageRegeneration)
    (revision : NoteRevision ρ κ) : NoteM ρ κ (NoteRevision ρ κ) := do
  let request : NoteImageRequest ρ :=
    { page := target
      reason := some .consistency_conflict
      evaluationReason := some (regeneration.imageReason.getD regeneration.reason) }
  let generation ← askPort (compiler.ports.generate · request) (.generated request)
  let auditRef := s!"note-page-regeneration:{target.id}:r{target.revision + 1}"
  let receipt : RegenerationReceipt :=
    { pageId := target.id
      fromRevision := target.revision
      toRevision := target.revision + 1
      auditRef }
  let plan ← check <| compiler.parsePlan notePageBound <|
    revision.plan.updatePage target.id fun candidate =>
      { candidate with
        revision := candidate.revision + 1
        imageAssetId := some generation.asset.id }
  let payload ← check <| orZodError <| NotePageRegeneratedPayload.parse <|
    .image auditRef target.id .check_violation
  return { revision with
    plan
    regenerationReceipts := revision.regenerationReceipts ++ [receipt]
    regenerated := revision.regenerated ++ [generation]
    auditSignals := revision.auditSignals ++ [.note_page_regenerated payload] }

/-- One page an evaluation lists. -/
def regeneratePage (selected : NotePlan ρ) (evaluation : NotePlanConsistencyEvaluation)
    (revision : NoteRevision ρ κ) (pageId : String) : NoteM ρ κ (NoteRevision ρ κ) :=
  match revision.plan.pages.find? (·.id = pageId) with
  | none => throw (.refused "Consistency evaluation referenced an unknown page.")
  | some page => do
    let regeneration := notePageRegenerationPlan evaluation pageId
    let revision ← (if regeneration.side = .image then pure revision
      else compiler.rewritePage notePageBound selected page regeneration revision)
    if regeneration.side = .text then pure revision
    else
      let target := (revision.plan.pages.find? (·.id = pageId)).getD page
      compiler.regenerateImage notePageBound target regeneration revision

def regenerateViolations (selected : NotePlan ρ) (evaluation : NotePlanConsistencyEvaluation)
    (revision : NoteRevision ρ κ) : NoteM ρ κ (NoteRevision ρ κ) :=
  evaluation.regenerationPageIds.foldlM
    (compiler.regeneratePage notePageBound selected evaluation) revision

/-! ### Evaluations -/

abbrev Evaluate (ρ : Type) :=
  Nat → NoteEvaluationAttempt → NotePlan ρ → Except NotePlanError NotePlanConsistencyEvaluation

def evaluateNote (evaluate : Evaluate ρ) (attempt : NoteEvaluationAttempt) (plan : NotePlan ρ) :
    NoteM ρ κ NotePlanConsistencyEvaluation := do
  let answer ← askPort (evaluate · attempt plan) (.evaluated attempt plan)
  check (orZodError (answer.parse compiler.isDatetime))

/-- The check of the first evaluation: what it lists is regenerated. -/
def checkInitial (selected : NotePlan ρ) (evaluation : NotePlanConsistencyEvaluation)
    (revision : NoteRevision ρ κ) : NoteM ρ κ (NoteRevision ρ κ) := do
  let signal (status : CheckStatus) : NotePlanCompilerAuditSignal :=
    .note_consistency_evaluated .initial evaluation status .warn false
  let (result, revision) ← CheckStrategy.warn.check
    (if evaluation.regenerationPageIds = [] then [] else [evaluation])
    (fun revision evaluation => compiler.regenerateViolations notePageBound selected evaluation
      { revision with auditSignals := revision.auditSignals ++ [signal .warned] }) revision
  return if result.status = .passed then
      { revision with auditSignals := revision.auditSignals ++ [signal .passed] }
    else revision

/-- An evaluation of what was regenerated; one that fails leaves the first. -/
def evaluateAgain (evaluate : Evaluate ρ) (initial : NotePlanConsistencyEvaluation)
    (plan : NotePlan ρ) : NoteM ρ κ (NotePlanConsistencyEvaluation × Bool) :=
  recover (fun
      | .schema | .structuredNode _ => some (initial, true)
      | .refused _ => none)
    ((·, false) <$> compiler.evaluateNote evaluate .after_regeneration plan)

/-- The check of what is left. -/
def checkFinal (evaluation : NotePlanConsistencyEvaluation) (secondEvaluationFailed : Bool)
    (auditSignals : List NotePlanCompilerAuditSignal) :
    NoteM ρ κ (List NotePlanCompilerAuditSignal) := do
  let signal (status : CheckStatus) : NotePlanCompilerAuditSignal :=
    .note_consistency_evaluated .after_regeneration evaluation status .warn secondEvaluationFailed
  let (result, auditSignals) ← CheckStrategy.warn.check
    (if secondEvaluationFailed ∨ evaluation.regenerationPageIds ≠ [] then [evaluation] else [])
    (fun auditSignals _ => pure (auditSignals ++ [signal .warned])) auditSignals
  return if result.status = .passed then auditSignals ++ [signal .passed] else auditSignals

/-- The second evaluation, where anything was regenerated. -/
def judgeAgain (evaluate : Evaluate ρ) (initial : NotePlanConsistencyEvaluation)
    (revision : NoteRevision ρ κ) : NoteM ρ κ
      (NotePlanConsistencyEvaluation × Bool × List NotePlanCompilerAuditSignal) :=
  if revision.regenerationReceipts = [] ∧ revision.textRewrites = 0 then
    return (initial, false, revision.auditSignals)
  else do
    let (evaluation, failed) ← compiler.evaluateAgain evaluate initial revision.plan
    let auditSignals ← checkFinal evaluation failed revision.auditSignals
    return (evaluation, failed, auditSignals)

/-! ### The note -/

/-- The plan with the images generated for its pages. -/
def NotePlanWithImages (plan : NotePlan ρ)
    (initial : List (NotePage ρ × NoteGeneration κ)) : NotePlan ρ :=
  { plan with pages := initial.map fun (page, generation) =>
      { page with imageAssetId := some generation.asset.id } }

/-- What no judge looks at. -/
def finishUnjudged (styleId : String) (initial : List (NoteGeneration κ)) (plan : NotePlan ρ) :
    Except NotePlanError (SelectedNote ρ κ) := do
  let version ← orZodError (PlannedNoteVersion.parse compiler.intents compiler.isDatetime
    { plan, regenerationReceipts := [] })
  return {
    auditSignals := [.note_style_selected styleId, .note_consistency_unavailable]
    childRuns := initial.map (·.childRun)
    ownedAssets := initial.map (·.asset)
    selectedStyleId := styleId
    version }

def partialDeliveryOf (evaluation : NotePlanConsistencyEvaluation)
    (secondEvaluationFailed : Bool) : Option NotePlanPartialDelivery :=
  if evaluation.regenerationPageIds ≠ [] ∨ secondEvaluationFailed then
    some {
      unresolvedPageIds := evaluation.regenerationPageIds
      reason := if secondEvaluationFailed then .second_evaluation_failed
        else .consistency_remained_incomplete }
  else none

/-- What a judge has looked at. -/
def finishJudged (styleId : String) (initial : List (NoteGeneration κ))
    (revision : NoteRevision ρ κ) (evaluation : NotePlanConsistencyEvaluation)
    (secondEvaluationFailed : Bool) (auditSignals : List NotePlanCompilerAuditSignal) :
    Except NotePlanError (SelectedNote ρ κ) := do
  let version ← orZodError (PlannedNoteVersion.parse compiler.intents compiler.isDatetime
    { plan := revision.plan
      evaluation := some evaluation
      regenerationReceipts := revision.regenerationReceipts })
  return {
    auditSignals
    childRuns := (initial ++ revision.regenerated).map (·.childRun)
    ownedAssets := (initial ++ revision.regenerated).map (·.asset)
    selectedStyleId := styleId
    partialDelivery := partialDeliveryOf evaluation secondEvaluationFailed
    version }

/-- The judge's part. -/
def judge (evaluate : Evaluate ρ) (styleId : String) (selected : NotePlan ρ)
    (initial : List (NoteGeneration κ)) (plan : NotePlan ρ) : NoteM ρ κ (SelectedNote ρ κ) := do
  let initialEvaluation ← compiler.evaluateNote evaluate .initial plan
  let revision ← compiler.checkInitial notePageBound selected initialEvaluation
    { plan, auditSignals := [.note_style_selected styleId] }
  let (evaluation, failed, auditSignals) ←
    compiler.judgeAgain evaluate initialEvaluation revision
  check (compiler.finishJudged styleId initial revision evaluation failed auditSignals)

def selectAndGenerate (input : NoteSelection compiler.intents) : NoteM ρ κ (SelectedNote ρ κ) :=
  match input.candidates.find? (·.styleId = input.selectedStyleId) with
  | none => throw (.refused "The selected NotePlan style is not available.")
  | some candidate => do
    let selected := candidate.parsed.plan
    check (assertNotePlanWithinBound selected input.notePageBound)
    let initial ← selected.pages.mapM compiler.generateInitial
    let plan ← check (compiler.parsePlan input.notePageBound (NotePlanWithImages selected initial))
    match compiler.enhancementJudge, compiler.ports.evaluate with
    | .unconfigured, _ =>
      check (compiler.finishUnjudged candidate.styleId (initial.map (·.2)) plan)
    | .configured, none =>
      throw (.refused "Configured NotePlan enhancement judge requires an evaluation port.")
    | .configured, some evaluate =>
      compiler.judge input.notePageBound evaluate candidate.styleId selected
        (initial.map (·.2)) plan

end NotePlanCompiler

end MeiyeAgent
