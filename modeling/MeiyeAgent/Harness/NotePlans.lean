import MeiyeAgent.Foundation.Schemas

/-!
# Harness/NotePlans — plans of image-text notes, as their schemas read them

A note is planned page by page; a page owns one image and the texts it shows.

* `NotePlan.parse` — `notePlanSchema`, which reads what it has read as itself.
* `NotePlanConsistencyEvaluation.parse` — what a judge may say of a plan.
* `PlannedNoteVersion.parse` — a plan with the receipts of the images made again.
-/

namespace MeiyeAgent

/-- `z.number().int().positive()`. -/
def isPositiveInt (n : Nat) : Bool := 0 < n ∧ (n : Int) ≤ maxSafeInteger

/-! ## Image intents -/

inductive ImageTextTreatment
  | exact | creative
  deriving DecidableEq

structure ImageExactText where
  text : String
  treatment : ImageTextTreatment
  deriving DecidableEq

inductive ImageOutputKind
  | single | set
  deriving DecidableEq

/-- An image intent: the fields a note reads or amends, and the `rest` of it. -/
structure ImageIntent (ρ : Type) where
  purpose : String
  exactText : List ImageExactText
  outputKind : ImageOutputKind := .single
  rest : ρ
  deriving DecidableEq

/-- `imageIntentSchema`, whose values are read as they are. -/
structure ImageIntentSchema (ρ : Type) where
  parse : ImageIntent ρ → Option (ImageIntent ρ)
  settles : Reading.Settles parse

/-! ## Pages -/

inductive NotePlanPageRole
  | cover | pain_scene | solution_show | work_case | price_offer | cta_guide
  deriving DecidableEq

inductive NotePlanPagePurpose
  | capture_attention | name_customer_pain | explain_solution | prove_with_case | present_offer
  | drive_action
  deriving DecidableEq

structure NotePlanTextBlock where
  title : String
  body : String
  exactText : List String
  deriving DecidableEq

inductive NoteDependencyKind
  | text_sequence | visual_reference
  deriving DecidableEq

structure NoteDependency where
  pageId : String
  kind : NoteDependencyKind
  deriving DecidableEq

structure NotePage (ρ : Type) where
  id : String
  order : Nat
  revision : Nat
  pageRole : NotePlanPageRole
  pagePurpose : NotePlanPagePurpose
  imageIntent : ImageIntent ρ
  textBlock : NotePlanTextBlock
  dependencies : List NoteDependency := []
  imageAssetId : Option String := none
  deriving DecidableEq

structure NotePlanStyle where
  id : String
  name : String
  positioning : String
  deriving DecidableEq

structure NotePlan (ρ : Type) where
  themeAnchor : String
  style : NotePlanStyle
  pages : List (NotePage ρ)
  deriving DecidableEq

variable {ρ : Type}

def NotePlanTextBlock.parse (block : NotePlanTextBlock) : Option NotePlanTextBlock := do
  let title ← parseTrimmed block.title
  let body ← parseTrimmed block.body
  let exactText ← block.exactText.mapM parseTrimmed
  return { title, body, exactText }

def NoteDependency.parse (dependency : NoteDependency) : Option NoteDependency := do
  let pageId ← parseTrimmed dependency.pageId
  return { dependency with pageId }

def NotePlanStyle.parse (style : NotePlanStyle) : Option NotePlanStyle := do
  let id ← parseTrimmed style.id
  let name ← parseTrimmed style.name
  let positioning ← parseTrimmed style.positioning
  return { id, name, positioning }

/-- One output, and the page's exact texts are those of its image. -/
def NotePage.Agrees (page : NotePage ρ) : Prop :=
  page.imageIntent.outputKind = .single ∧
    sortTexts page.textBlock.exactText =
      sortTexts ((page.imageIntent.exactText.filter (·.treatment = .exact)).map (·.text))

instance (page : NotePage ρ) : Decidable page.Agrees := by
  unfold NotePage.Agrees
  infer_instance

/-- `notePlanPageSchema`. -/
def NotePage.parse (intents : ImageIntentSchema ρ) (page : NotePage ρ) :
    Option (NotePage ρ) := do
  let id ← parseTrimmed page.id
  let imageIntent ← intents.parse page.imageIntent
  let textBlock ← page.textBlock.parse
  let dependencies ← page.dependencies.mapM NoteDependency.parse
  let imageAssetId ← page.imageAssetId.mapM parseTrimmed
  let parsed := { page with id, imageIntent, textBlock, dependencies, imageAssetId }
  if isPositiveInt page.order ∧ isPositiveInt page.revision ∧ parsed.Agrees then some parsed
  else none

/-! ## Plans -/

/-- A dependency is on another page, on an earlier one for a text. -/
def NotePlan.Admits (plan : NotePlan ρ) (page : NotePage ρ) (dependency : NoteDependency) :
    Bool :=
  match plan.pages.find? (·.id = dependency.pageId) with
  | none => false
  | some other =>
    other.id ≠ page.id ∧ (dependency.kind = .text_sequence → other.order < page.order)

/-- Two to twelve pages of ids of their own, numbered as they stand. -/
def NotePlan.WellFormed (plan : NotePlan ρ) : Prop :=
  (2 ≤ plan.pages.length ∧ plan.pages.length ≤ 12) ∧ (plan.pages.map (·.id)).Nodup ∧
    plan.pages.map (·.order) = List.range' 1 plan.pages.length ∧
    ∀ page ∈ plan.pages, ∀ dependency ∈ page.dependencies, plan.Admits page dependency

instance (plan : NotePlan ρ) : Decidable plan.WellFormed := by
  unfold NotePlan.WellFormed
  infer_instance

/-- `notePlanSchema`. -/
def NotePlan.parse (intents : ImageIntentSchema ρ) (plan : NotePlan ρ) : Option (NotePlan ρ) := do
  let themeAnchor ← parseTrimmed plan.themeAnchor
  let style ← plan.style.parse
  let pages ← plan.pages.mapM (NotePage.parse intents)
  let parsed : NotePlan ρ := { themeAnchor, style, pages }
  if parsed.WellFormed then some parsed else none

/-! ### What is read is read as itself -/

theorem NotePlanTextBlock.settles_parse : Reading.Settles NotePlanTextBlock.parse := by
  intro block parsed h
  simp only [parse, Option.bind_eq_bind, Option.bind_eq_some_iff, Option.pure_def,
    Option.some.injEq] at h
  obtain ⟨title, htitle, body, hbody, texts, htexts, rfl⟩ := h
  simp only [parse, parseTrimmed_idem htitle, parseTrimmed_idem hbody,
    settles_parseTrimmed.list _ _ htexts, Option.bind_eq_bind, Option.pure_def, Option.bind_some]

theorem NoteDependency.settles_parse : Reading.Settles NoteDependency.parse := by
  intro dependency parsed h
  simp only [parse, Option.bind_eq_bind, Option.bind_eq_some_iff, Option.pure_def,
    Option.some.injEq] at h
  obtain ⟨pageId, hid, rfl⟩ := h
  simp only [parse, parseTrimmed_idem hid, Option.bind_eq_bind, Option.pure_def, Option.bind_some]

theorem NotePlanStyle.settles_parse : Reading.Settles NotePlanStyle.parse := by
  intro style parsed h
  simp only [parse, Option.bind_eq_bind, Option.bind_eq_some_iff, Option.pure_def,
    Option.some.injEq] at h
  obtain ⟨id, hid, name, hname, positioning, hpositioning, rfl⟩ := h
  simp only [parse, parseTrimmed_idem hid, parseTrimmed_idem hname,
    parseTrimmed_idem hpositioning, Option.bind_eq_bind, Option.pure_def, Option.bind_some]

section Pages

variable {intents : ImageIntentSchema ρ} {page parsed : NotePage ρ}

theorem NotePage.parse_eq_some (h : page.parse intents = some parsed) :
    ∃ id imageIntent textBlock dependencies imageAssetId,
      parseTrimmed page.id = some id ∧ intents.parse page.imageIntent = some imageIntent ∧
      page.textBlock.parse = some textBlock ∧
      page.dependencies.mapM NoteDependency.parse = some dependencies ∧
      page.imageAssetId.mapM parseTrimmed = some imageAssetId ∧
      parsed = { page with id, imageIntent, textBlock, dependencies, imageAssetId } ∧
      isPositiveInt page.order ∧ isPositiveInt page.revision ∧ parsed.Agrees := by
  simp only [parse, Option.bind_eq_bind, Option.bind_eq_some_iff] at h
  obtain ⟨id, hid, intent, hintent, block, hblock, dependencies, hdeps, asset, hasset, h⟩ := h
  split at h
  · next hsound =>
    obtain rfl := Option.some.inj h
    exact ⟨id, intent, block, dependencies, asset, hid, hintent, hblock, hdeps, hasset, rfl, hsound⟩
  · exact nomatch h

theorem NotePage.settles_parse (intents : ImageIntentSchema ρ) :
    Reading.Settles (NotePage.parse intents) := by
  intro page parsed h
  obtain ⟨id, intent, block, dependencies, asset, hid, hintent, hblock, hdeps, hasset, rfl,
    horder, hrevision, hagrees⟩ := parse_eq_some h
  simp only [parse, parseTrimmed_idem hid, intents.settles _ _ hintent,
    NotePlanTextBlock.settles_parse _ _ hblock, NoteDependency.settles_parse.list _ _ hdeps,
    settles_parseTrimmed.option _ _ hasset, Option.bind_eq_bind, Option.bind_some]
  exact if_pos ⟨horder, hrevision, hagrees⟩

/-- **What a reading of a page leaves as it is.** -/
theorem NotePage.parse_keeps (h : page.parse intents = some parsed) :
    parseTrimmed page.id = some parsed.id ∧ parsed.order = page.order ∧
      parsed.revision = page.revision ∧ parsed.pageRole = page.pageRole ∧
      page.imageAssetId.mapM parseTrimmed = some parsed.imageAssetId := by
  obtain ⟨id, intent, block, dependencies, asset, hid, hintent, hblock, hdeps, hasset, rfl, -⟩ :=
    parse_eq_some h
  exact ⟨hid, rfl, rfl, rfl, hasset⟩

end Pages

section Plans

variable {intents : ImageIntentSchema ρ} {plan parsed : NotePlan ρ}

theorem NotePlan.parse_eq_some (h : plan.parse intents = some parsed) :
    parseTrimmed plan.themeAnchor = some parsed.themeAnchor ∧
      plan.style.parse = some parsed.style ∧
      plan.pages.mapM (NotePage.parse intents) = some parsed.pages ∧ parsed.WellFormed := by
  simp only [parse, Option.bind_eq_bind, Option.bind_eq_some_iff] at h
  obtain ⟨theme, htheme, style, hstyle, pages, hpages, h⟩ := h
  split at h
  · next hformed =>
    obtain rfl := Option.some.inj h
    exact ⟨htheme, hstyle, hpages, hformed⟩
  · exact nomatch h

/-- **A plan that was read is read as itself.** -/
theorem NotePlan.settles_parse (intents : ImageIntentSchema ρ) :
    Reading.Settles (NotePlan.parse intents) := by
  intro plan parsed h
  obtain ⟨htheme, hstyle, hpages, hformed⟩ := parse_eq_some h
  simp only [parse, parseTrimmed_idem htheme, NotePlanStyle.settles_parse _ _ hstyle,
    (NotePage.settles_parse intents).list _ _ hpages, Option.bind_eq_bind, Option.bind_some]
  exact if_pos hformed

end Plans

/-- A plan as `notePlanSchema` has read it. -/
structure ParsedNotePlan (intents : ImageIntentSchema ρ) where
  plan : NotePlan ρ
  parsed : plan.parse intents = some plan

/-! ## Evaluations -/

inductive NotePlanConsistencyDimension
  | theme_continuity | visual_consistency | non_repetition | role_coverage
  | image_text_cross_reference
  deriving DecidableEq

/-- `NOTE_PLAN_CONSISTENCY_DIMENSIONS`. -/
def notePlanConsistencyDimensions : List NotePlanConsistencyDimension :=
  [.theme_continuity, .visual_consistency, .non_repetition, .role_coverage,
    .image_text_cross_reference]

/-- What a judge says of one dimension. -/
structure NoteConsistencyFinding where
  dimension : NotePlanConsistencyDimension
  passed : Bool
  reason : String
  pageIds : List String
  deriving DecidableEq

structure NotePlanConsistencyEvaluation where
  evaluatedAt : String
  dimensions : List NoteConsistencyFinding
  regenerationPageIds : List String
  deriving DecidableEq

def NoteConsistencyFinding.parse (finding : NoteConsistencyFinding) :
    Option NoteConsistencyFinding := do
  let reason ← parseTrimmed finding.reason
  let pageIds ← finding.pageIds.mapM parseTrimmed
  return { finding with reason, pageIds }

/-- `notePlanConsistencyEvaluationSchema`: each dimension once.  `isDatetime` is
`z.iso.datetime`. -/
def NotePlanConsistencyEvaluation.parse (isDatetime : String → Bool)
    (evaluation : NotePlanConsistencyEvaluation) : Option NotePlanConsistencyEvaluation := do
  let dimensions ← evaluation.dimensions.mapM NoteConsistencyFinding.parse
  let regenerationPageIds ← evaluation.regenerationPageIds.mapM parseTrimmed
  if isDatetime evaluation.evaluatedAt ∧
      dimensions.length = notePlanConsistencyDimensions.length ∧
      ∀ dimension ∈ notePlanConsistencyDimensions, dimension ∈ dimensions.map (·.dimension) then
    some { evaluation with dimensions, regenerationPageIds }
  else none

/-! ## Versions -/

inductive RegenerationReason
  | merchant_request | consistency_conflict
  deriving DecidableEq

structure RegenerationReceipt where
  pageId : String
  fromRevision : Nat
  toRevision : Nat
  imagePoints : Nat := 1
  reason : RegenerationReason := .consistency_conflict
  auditRef : String
  deriving DecidableEq

structure PlannedNoteVersion (ρ : Type) where
  plan : NotePlan ρ
  evaluation : Option NotePlanConsistencyEvaluation := none
  regenerationReceipts : List RegenerationReceipt
  deriving DecidableEq

def RegenerationReceipt.parse (receipt : RegenerationReceipt) : Option RegenerationReceipt := do
  let pageId ← parseTrimmed receipt.pageId
  let auditRef ← parseTrimmed receipt.auditRef
  if isPositiveInt receipt.fromRevision ∧ isPositiveInt receipt.toRevision ∧
      receipt.imagePoints = 1 then
    some { receipt with pageId, auditRef }
  else none

/-- `imageTextNoteVersionSchema`. -/
def PlannedNoteVersion.parse (intents : ImageIntentSchema ρ) (isDatetime : String → Bool)
    (version : PlannedNoteVersion ρ) : Option (PlannedNoteVersion ρ) := do
  let plan ← version.plan.parse intents
  let evaluation ← version.evaluation.mapM (NotePlanConsistencyEvaluation.parse isDatetime)
  let regenerationReceipts ← version.regenerationReceipts.mapM RegenerationReceipt.parse
  return { plan, evaluation, regenerationReceipts }

theorem RegenerationReceipt.parse_eq_some {receipt parsed : RegenerationReceipt}
    (h : receipt.parse = some parsed) : parseTrimmed receipt.pageId = some parsed.pageId ∧
      parsed.fromRevision = receipt.fromRevision ∧ parsed.toRevision = receipt.toRevision := by
  simp only [parse, Option.bind_eq_bind, Option.bind_eq_some_iff] at h
  obtain ⟨pageId, hid, auditRef, -, h⟩ := h
  split at h
  · obtain rfl := Option.some.inj h
    exact ⟨hid, rfl, rfl⟩
  · exact nomatch h

/-- A receipt is of one image. -/
theorem RegenerationReceipt.imagePoints_of_parse {receipt parsed : RegenerationReceipt}
    (h : receipt.parse = some parsed) : parsed.imagePoints = 1 := by
  simp only [parse, Option.bind_eq_bind, Option.bind_eq_some_iff] at h
  obtain ⟨pageId, -, auditRef, -, h⟩ := h
  split at h
  · next hsound =>
    obtain rfl := Option.some.inj h
    exact hsound.2.2
  · cases h

end MeiyeAgent
