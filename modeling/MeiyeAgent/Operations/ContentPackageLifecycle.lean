import MeiyeAgent.Foundation.Json
import MeiyeAgent.Foundation.Schemas
import MeiyeAgent.Machinery.Sorting
import MeiyeAgent.Machinery.Table

/-!
# Operations/ContentPackageLifecycle — the versions of a content package

A package and each of its variants own a **line** of versions and say which of them is current.  An
edit puts a version behind the current one, and a rollback puts one behind it that restores an
earlier version.  What the schema makes of the new package is the answer.
-/

namespace MeiyeAgent

open Sorting Table

/-! ## Quick edits -/

inductive QuickEditExportUse
  | wechat_moments | offline_material | poster | image_set | spoken_script | appointment_card
  deriving DecidableEq

inductive QuickEditTarget
  | package_version | platform_variant | export_use
  deriving DecidableEq

inductive QuickEditAction
  | natural_language | identity_brand | identity_person | promotion_weaker | promotion_stronger
  | replace_assets | platform_variant | wechat_moments_export | offline_material_export | poster
  | image_set | spoken_script | appointment_card
  deriving DecidableEq

/-- `QUICK_EDIT_TARGET_BY_ACTION`. -/
def QuickEditAction.target : QuickEditAction → QuickEditTarget
  | .natural_language | .identity_brand | .identity_person | .promotion_weaker
  | .promotion_stronger | .replace_assets => .package_version
  | .platform_variant => .platform_variant
  | .wechat_moments_export | .offline_material_export | .poster | .image_set | .spoken_script
  | .appointment_card => .export_use

/-- `QUICK_EDIT_EXPORT_USE_BY_ACTION`. -/
def QuickEditAction.exportUse : QuickEditAction → Option QuickEditExportUse
  | .wechat_moments_export => some .wechat_moments
  | .offline_material_export => some .offline_material
  | .poster => some .poster
  | .image_set => some .image_set
  | .spoken_script => some .spoken_script
  | .appointment_card => some .appointment_card
  | _ => none

structure QuickEditIntent where
  action : QuickEditAction
  exportUse : Option QuickEditExportUse := none
  instruction : String
  target : QuickEditTarget
  baseVersionId : String
  preservedFactRefs : List String
  preservedRightsRefs : List String
  deriving DecidableEq

/-- `quickEditIntentSchema`. -/
def QuickEditIntent.parse (intent : QuickEditIntent) : Option QuickEditIntent := do
  let instruction ← parseTrimmedMost 2000 intent.instruction
  let baseVersionId ← parseTrimmed intent.baseVersionId
  let preservedFactRefs ← intent.preservedFactRefs.mapM parseTrimmed
  let preservedRightsRefs ← intent.preservedRightsRefs.mapM parseTrimmed
  if intent.target = intent.action.target ∧ intent.exportUse = intent.action.exportUse then
    some { intent with instruction, baseVersionId, preservedFactRefs, preservedRightsRefs }
  else none

inductive PromotionalMaterialPurpose
  | xiaohongshu_cover | douyin_cover | wechat_moments_poster | offline_a4_poster
  deriving DecidableEq

structure TextSafeArea where
  top : Nat
  right : Nat
  bottom : Nat
  left : Nat
  deriving DecidableEq

structure PromotionalMaterialSpec where
  purpose : PromotionalMaterialPurpose
  width : Nat
  height : Nat
  aspectRatio : String
  textSafeArea : TextSafeArea
  cropStrategy : String
  format : String := "image/png"
  renderer : String := "light-composer"
  rendererVersion : String := "light-composer-v1"
  deriving DecidableEq

/-- The row of `PROMOTIONAL_MATERIAL_SPECS` for a purpose. -/
def promotionalMaterialSpec : PromotionalMaterialPurpose → PromotionalMaterialSpec
  | .xiaohongshu_cover => ⟨.xiaohongshu_cover, 1242, 1660, "3:4", ⟨116, 96, 140, 96⟩,
      "cover_center", "image/png", "light-composer", "light-composer-v1"⟩
  | .douyin_cover => ⟨.douyin_cover, 1080, 1440, "3:4", ⟨180, 90, 220, 90⟩, "cover_center",
      "image/png", "light-composer", "light-composer-v1"⟩
  | .wechat_moments_poster => ⟨.wechat_moments_poster, 1080, 1080, "1:1", ⟨86, 86, 86, 86⟩,
      "contain_brand_safe", "image/png", "light-composer", "light-composer-v1"⟩
  | .offline_a4_poster => ⟨.offline_a4_poster, 2480, 3508, "210:297", ⟨176, 176, 176, 176⟩,
      "contain_brand_safe", "image/png", "light-composer", "light-composer-v1"⟩

/-- What an edit for an export hands out.  A light composer's template role is its export use. -/
inductive QuickEditExportUseDelivery
  | formatted_text (exportUse : QuickEditExportUse) (fileName text : String)
  | light_composer (exportUse : QuickEditExportUse) (materialSpecs : List PromotionalMaterialSpec)
      (sourcePackageId sourceWorkId sourceVersionId : Option String)
  deriving DecidableEq

/-- `quickEditExportUseDeliverySchema`. -/
def QuickEditExportUseDelivery.parse :
    QuickEditExportUseDelivery → Option QuickEditExportUseDelivery
  | .formatted_text exportUse fileName text => do
    let fileName ← parseTrimmed fileName
    let text ← parseTrimmed text
    if exportUse = .wechat_moments ∨ exportUse = .spoken_script then
      some (.formatted_text exportUse fileName text)
    else none
  | .light_composer exportUse materialSpecs sourcePackageId sourceWorkId sourceVersionId => do
    let packageId ← sourcePackageId.mapM parseTrimmed
    let workId ← sourceWorkId.mapM parseTrimmed
    let versionId ← sourceVersionId.mapM parseTrimmed
    if exportUse ≠ .wechat_moments ∧ exportUse ≠ .spoken_script ∧ materialSpecs ≠ [] ∧
        packageId.isSome = versionId.isSome then
      some (.light_composer exportUse materialSpecs packageId workId versionId)
    else none

/-! ## Versions -/

/-- A page of a note, with what of it is not read here as JSON. -/
structure NotePlanPage where
  imageAssetId : Option String
  page : Json

/-- A note as the schema has read it, with what of it is not read here as JSON. -/
structure ImageTextNoteVersion where
  pages : List NotePlanPage
  note : Json

/-- What of a version is its content. -/
structure VersionChanges where
  body : String
  conversionHook : Option String := none
  note : Option ImageTextNoteVersion := none
  orderedAssetIds : List String
  title : String
  topics : List String

inductive ContentPackageVersionSource
  | ai_generated | merchant_edited | rollback_restored
  deriving DecidableEq

structure ContentPackageVersion extends VersionChanges where
  createdAt : String
  createdBy : Option String := none
  derivedFromVersionId : Option String := none
  editIntent : Option QuickEditIntent := none
  exportUseDelivery : Option QuickEditExportUseDelivery := none
  id : String
  harnessCandidateId : Option String := none
  revertedFromVersionId : Option String := none
  source : Option ContentPackageVersionSource := none
  /-- the schema version of the canvas it comes from -/
  sourceRef : Option Nat := none

/-- `contentPackageVersionSourceRefIsReadOnly`. -/
def contentPackageVersionSourceRefIsReadOnly (schemaVersion : Nat) : Bool := 1 < schemaVersion

/-- `contentPackageVersionSchema`. -/
def ContentPackageVersion.parse (isDatetime : String → Bool) (version : ContentPackageVersion) :
    Option ContentPackageVersion := do
  let createdBy ← version.createdBy.mapM parseTrimmed
  let derivedFromVersionId ← version.derivedFromVersionId.mapM parseTrimmed
  let editIntent ← version.editIntent.mapM QuickEditIntent.parse
  let exportUseDelivery ← version.exportUseDelivery.mapM QuickEditExportUseDelivery.parse
  let id ← parseTrimmed version.id
  let harnessCandidateId ← version.harnessCandidateId.mapM parseTrimmed
  let orderedAssetIds ← version.orderedAssetIds.mapM parseTrimmed
  let revertedFromVersionId ← version.revertedFromVersionId.mapM parseTrimmed
  let topics ← version.topics.mapM parseTrimmed
  if isDatetime version.createdAt ∧ version.sourceRef ≠ some 0 then
    some { version with
      createdBy, derivedFromVersionId, editIntent, exportUseDelivery, id, harnessCandidateId,
      orderedAssetIds, revertedFromVersionId, topics }
  else none

/-! ## Packages -/

inductive ContentPackagePlatform
  | xiaohongshu | douyin | video_account
  deriving DecidableEq

inductive ContentPackageStatus
  | draft | needs_input | generating | verifying | partial_ | review_ready | accepted
  | needs_replacement | cancelling | cancelled | save_unknown | export_failed
  deriving DecidableEq

structure ContentPackageVariant where
  currentVersionId : String
  id : String
  platform : ContentPackagePlatform
  versions : List ContentPackageVersion

structure HarnessSelection where
  adoptedCandidateId : Option String
  recommendedCandidateId : String
  deriving DecidableEq

structure MarketingRefs where
  factRefs : List String
  rightsRefs : List String
  deriving DecidableEq

/-- What of a package its versions leave alone. -/
structure ContentPackageFrame where
  id : String
  status : ContentPackageStatus
  sourceAssetIds : List String := []
  sourceWorkId : Option String := none
  generatedAssetIds : List String := []
  marketing : Option MarketingRefs := none
  harnessSelection : Option HarnessSelection := none
  legacySource : Bool := false
  deriving DecidableEq

/-- A package, as far as its versions are concerned. -/
structure ContentPackage extends ContentPackageFrame where
  currentVersionId : Option String := none
  updatedAt : String
  versions : List ContentPackageVersion
  variants : List ContentPackageVariant := []

/-- Whose versions are meant. -/
inductive VersionTarget
  | package
  | variant (platform : ContentPackagePlatform)
  deriving DecidableEq

/-- The versions of a package or of a variant. -/
structure VersionLine where
  ownerId : String
  currentVersionId : Option String
  versions : List ContentPackageVersion

/-- `candidate.platform === target.platform`. -/
def ContentPackageVariant.isOn (platform : ContentPackagePlatform)
    (variant : ContentPackageVariant) : Bool :=
  variant.platform = platform

@[simp] theorem ContentPackageVariant.isOn_iff {platform : ContentPackagePlatform}
    {variant : ContentPackageVariant} :
    variant.isOn platform = true ↔ variant.platform = platform := decide_eq_true_iff

def ContentPackageVariant.line (variant : ContentPackageVariant) : VersionLine where
  ownerId := variant.id
  currentVersionId := some variant.currentVersionId
  versions := variant.versions

namespace ContentPackage

variable (p : ContentPackage)

def line : VersionTarget → Option VersionLine
  | .package => some ⟨p.id, p.currentVersionId, p.versions⟩
  | .variant platform => (p.variants.find? (·.isOn platform)).map (·.line)

def allVersions : List ContentPackageVersion :=
  p.versions ++ p.variants.flatMap (·.versions)

def harnessCandidateIds : List String := p.versions.filterMap (·.harnessCandidateId)

/-- The checks of `contentPackageSchema` across the fields. -/
structure Refined : Prop where
  versions : (p.versions.map (·.id)).Nodup
  current : ∀ id ∈ p.currentVersionId, id ∈ p.versions.map (·.id)
  candidates : p.harnessCandidateIds.Nodup
  recommended : ∀ selection ∈ p.harnessSelection,
    selection.recommendedCandidateId ∈ p.harnessCandidateIds
  adopted : ∀ selection ∈ p.harnessSelection, ∀ id ∈ selection.adoptedCandidateId,
    id ∈ p.harnessCandidateIds
  count : p.legacySource = true ∨ p.variants.length = 0 ∨ p.variants.length = 3
  platforms : (p.variants.map (·.platform)).Nodup
  variants : ∀ variant ∈ p.variants, (variant.versions.map (·.id)).Nodup ∧
    variant.currentVersionId ∈ variant.versions.map (·.id)

instance : Decidable p.Refined :=
  decidable_of_iff ((p.versions.map (·.id)).Nodup ∧
      (∀ id ∈ p.currentVersionId, id ∈ p.versions.map (·.id)) ∧ p.harnessCandidateIds.Nodup ∧
      (∀ selection ∈ p.harnessSelection,
        selection.recommendedCandidateId ∈ p.harnessCandidateIds) ∧
      (∀ selection ∈ p.harnessSelection, ∀ id ∈ selection.adoptedCandidateId,
        id ∈ p.harnessCandidateIds) ∧
      (p.legacySource = true ∨ p.variants.length = 0 ∨ p.variants.length = 3) ∧
      (p.variants.map (·.platform)).Nodup ∧
      ∀ variant ∈ p.variants, (variant.versions.map (·.id)).Nodup ∧
        variant.currentVersionId ∈ variant.versions.map (·.id))
    ⟨fun ⟨h₁, h₂, h₃, h₄, h₅, h₆, h₇, h₈⟩ => ⟨h₁, h₂, h₃, h₄, h₅, h₆, h₇, h₈⟩,
      fun h => ⟨h.1, h.2, h.3, h.4, h.5, h.6, h.7, h.8⟩⟩

end ContentPackage

/-- `contentPackageVariantSchema`. -/
def ContentPackageVariant.parse (isDatetime : String → Bool) (variant : ContentPackageVariant) :
    Option ContentPackageVariant := do
  let currentVersionId ← parseTrimmed variant.currentVersionId
  let id ← parseTrimmed variant.id
  let versions ← variant.versions.mapM (ContentPackageVersion.parse isDatetime)
  if versions ≠ [] then some { variant with currentVersionId, id, versions } else none

def MarketingRefs.parse (refs : MarketingRefs) : Option MarketingRefs := do
  let factRefs ← refs.factRefs.mapM parseTrimmed
  let rightsRefs ← refs.rightsRefs.mapM parseTrimmed
  some { factRefs, rightsRefs }

def HarnessSelection.parse (selection : HarnessSelection) : Option HarnessSelection := do
  let adoptedCandidateId ← selection.adoptedCandidateId.mapM parseTrimmed
  let recommendedCandidateId ← parseTrimmed selection.recommendedCandidateId
  some { adoptedCandidateId, recommendedCandidateId }

def ContentPackageFrame.parse (frame : ContentPackageFrame) : Option ContentPackageFrame := do
  let id ← parseTrimmed frame.id
  let sourceAssetIds ← frame.sourceAssetIds.mapM parseTrimmed
  let sourceWorkId ← frame.sourceWorkId.mapM parseTrimmed
  let generatedAssetIds ← frame.generatedAssetIds.mapM parseTrimmed
  let marketing ← frame.marketing.mapM MarketingRefs.parse
  let harnessSelection ← frame.harnessSelection.mapM HarnessSelection.parse
  some { frame with
    id, sourceAssetIds, sourceWorkId, generatedAssetIds, marketing, harnessSelection }

/-- `contentPackageSchema`. -/
def ContentPackage.parse (isDatetime : String → Bool) (p : ContentPackage) :
    Option ContentPackage := do
  let frame ← p.toContentPackageFrame.parse
  let currentVersionId ← p.currentVersionId.mapM parseTrimmed
  let versions ← p.versions.mapM (ContentPackageVersion.parse isDatetime)
  let variants ← p.variants.mapM (ContentPackageVariant.parse isDatetime)
  let parsed : ContentPackage :=
    { toContentPackageFrame := frame, currentVersionId, updatedAt := p.updatedAt, versions,
      variants }
  if isDatetime p.updatedAt ∧ parsed.Refined then some parsed else none

/-! ## Errors -/

inductive ContentPackageLifecycleErrorCode
  | CONTENT_PACKAGE_SOURCE_REF_READ_ONLY | CONTENT_PACKAGE_CONTEXT_REFS_CHANGED
  | CONTENT_PACKAGE_TRANSITION_CONFLICT | CONTENT_PACKAGE_VARIANT_NOT_FOUND
  | CONTENT_PACKAGE_VERSION_CONFLICT | CONTENT_PACKAGE_VERSION_NOT_FOUND
  | INVALID_CONTENT_PACKAGE_ASSET
  deriving DecidableEq

/-- What a call throws: an error of its own, or the schema's. -/
inductive LifecycleThrown
  | lifecycle (code : ContentPackageLifecycleErrorCode) (message : String) (status : Nat)
  | zod
  deriving DecidableEq

def variantNotFound : LifecycleThrown :=
  .lifecycle .CONTENT_PACKAGE_VARIANT_NOT_FOUND "The platform variant was not found." 404

def versionConflict : VersionTarget → LifecycleThrown
  | .variant _ => .lifecycle .CONTENT_PACKAGE_VERSION_CONFLICT
      "The platform variant changed before this edit was saved." 409
  | .package => .lifecycle .CONTENT_PACKAGE_VERSION_CONFLICT
      "The ContentPackage version changed before this edit was saved." 409

def contextRefsChanged : LifecycleThrown :=
  .lifecycle .CONTENT_PACKAGE_CONTEXT_REFS_CHANGED
    "Quick edits must preserve the frozen fact and rights references." 409

def versionNotFound (message : String) : LifecycleThrown :=
  .lifecycle .CONTENT_PACKAGE_VERSION_NOT_FOUND message 404

def sourceRefReadOnly : LifecycleThrown :=
  .lifecycle .CONTENT_PACKAGE_SOURCE_REF_READ_ONLY
    "This ContentPackage version uses a newer source schema and is read-only." 409

def transitionConflict (message : String) : LifecycleThrown :=
  .lifecycle .CONTENT_PACKAGE_TRANSITION_CONFLICT message 409

def notEditable : VersionTarget → LifecycleThrown
  | .variant _ => transitionConflict "This ContentPackage cannot be edited in its current state."
  | .package => transitionConflict "Only a review-ready or usable ContentPackage can be edited."

def invalidAsset (message : String) : LifecycleThrown :=
  .lifecycle .INVALID_CONTENT_PACKAGE_ASSET message 409

def assetNotOwned : VersionTarget → LifecycleThrown
  | .variant _ => invalidAsset "An edited variant can reference only owned package Assets."
  | .package => invalidAsset "An edited ContentPackage can reference only owned package Assets."

/-! ## The two calls -/

/-- Sixteen hexadecimal digits. -/
def IsDigest (text : String) : Prop :=
  text.toList.length = 16 ∧ text.toList.all ("0123456789abcdef".toList.contains ·) = true

/-- **The host of the lifecycle**: which texts the schemas take for a date and a time, and the first
sixteen digits of the digests, of an edit's JSON text and of a text. -/
structure VersionHost where
  isDatetime : String → Bool
  editDigest : String → VersionChanges → Option QuickEditIntent → String
  digest : String → String
  editDigest_hex : ∀ baseVersionId changes intent,
    IsDigest (editDigest baseVersionId changes intent)
  digest_hex : ∀ text, IsDigest (digest text)

/-- `EDITABLE_STATUSES`. -/
def editableStatuses : List ContentPackageStatus :=
  [.accepted, .export_failed, .needs_replacement, .review_ready]

/-- `editableAssetIds`. -/
def editableAssetIds (p : ContentPackage) (target : VersionTarget) : List String :=
  p.sourceAssetIds ++ p.generatedAssetIds ++ p.versions.flatMap (·.orderedAssetIds) ++
    match target with
    | .variant _ => p.variants.flatMap fun variant => variant.versions.flatMap (·.orderedAssetIds)
    | .package => []

/-- `sameSet`. -/
def sameSet (left right : List String) : Bool :=
  let joined (texts : List String) := Text.join '\x00' (sortTexts (firsts id [] texts))
  left.length = right.length && joined left = joined right

structure EditVersionInput where
  baseVersionId : String
  changes : VersionChanges
  intent : Option QuickEditIntent := none
  target : VersionTarget
  timestamp : String
  userId : String

/-- A quick edit keeps to its base and to the references of the package. -/
def keepsContextRefs (p : ContentPackage) (input : EditVersionInput) (intent : QuickEditIntent) :
    Bool :=
  intent.baseVersionId = input.baseVersionId &&
    sameSet intent.preservedFactRefs ((p.marketing.map (·.factRefs)).getD []) &&
    sameSet intent.preservedRightsRefs ((p.marketing.map (·.rightsRefs)).getD [])

/-- The note of the base stands where the changes bring none. -/
def VersionChanges.inherit (changes : VersionChanges) (base : ContentPackageVersion) :
    VersionChanges :=
  { changes with note := changes.note <|> base.note }

/-- One image for each page, in the order of the pages. -/
def VersionChanges.pagesIllustrated (changes : VersionChanges) : Bool :=
  changes.note.all fun note =>
    note.pages.map (·.imageAssetId) = changes.orderedAssetIds.map some

/-- `exportUseDelivery`, before the schema reads it. -/
def exportUseDelivery (p : ContentPackage) (changes : VersionChanges)
    (intent : Option QuickEditIntent) (sourceVersionId : String) :
    Option QuickEditExportUseDelivery := do
  let intent ← intent
  let exportUse ← if intent.target = .export_use then intent.exportUse else none
  let formattedText := "\n\n".intercalate
    ([changes.title, changes.body, changes.conversionHook.getD ""].filter (· ≠ ""))
  let composed (purposes : List PromotionalMaterialPurpose) : QuickEditExportUseDelivery :=
    .light_composer exportUse (purposes.map promotionalMaterialSpec) (some p.id)
      (truthy p.sourceWorkId) (some sourceVersionId)
  match exportUse with
  | .wechat_moments => some (.formatted_text exportUse "wechat-moments.txt" formattedText)
  | .spoken_script => some (.formatted_text exportUse "spoken-script.txt" formattedText)
  | .offline_material => some (composed [.offline_a4_poster])
  | .poster => some (composed [.wechat_moments_poster])
  | .image_set => some (composed [.xiaohongshu_cover, .douyin_cover])
  | .appointment_card => some (composed [.wechat_moments_poster])

def ContentPackageVariant.push (version : ContentPackageVersion) (variant : ContentPackageVariant) :
    ContentPackageVariant :=
  { variant with currentVersionId := version.id, versions := variant.versions ++ [version] }

/-- The package with a version behind those of its own. -/
def ContentPackage.pushOwn (p : ContentPackage) (version : ContentPackageVersion)
    (timestamp : String) : ContentPackage :=
  { p with
    currentVersionId := some version.id
    updatedAt := timestamp
    versions := p.versions ++ [version] }

/-- The package with a version behind those of the first such variant. -/
def ContentPackage.pushVariant (p : ContentPackage) (isTarget : ContentPackageVariant → Bool)
    (version : ContentPackageVersion) (timestamp : String) : ContentPackage :=
  { p with
    updatedAt := timestamp
    variants := updateFirst isTarget (ContentPackageVariant.push version) p.variants }

def ContentPackage.push (p : ContentPackage) (target : VersionTarget)
    (version : ContentPackageVersion) (timestamp : String) : ContentPackage :=
  match target with
  | .package => p.pushOwn version timestamp
  | .variant platform => p.pushVariant (·.isOn platform) version timestamp

/-- `a ?? (throw e)`. -/
def orThrow {α : Type} (e : LifecycleThrown) : Option α → Except LifecycleThrown α
  | some a => .ok a
  | none => .error e

section Calls

variable (host : VersionHost) (p : ContentPackage)

/-- `editedVersionId`. -/
def editedVersionId (ownerId baseVersionId : String) (changes : VersionChanges)
    (intent : Option QuickEditIntent) : String :=
  ownerId ++ "-v-" ++ host.editDigest baseVersionId changes intent

/-- The version an edit makes, with what it hands out. -/
def editedVersion (input : EditVersionInput) (changes : VersionChanges) (versionId : String)
    (delivery : Option QuickEditExportUseDelivery) : ContentPackageVersion :=
  { changes with
    createdAt := input.timestamp
    createdBy := some input.userId
    derivedFromVersionId := some input.baseVersionId
    editIntent := input.intent
    exportUseDelivery := delivery
    id := versionId
    source := some .merchant_edited }

def editContentPackageLifecycleVersion (input : EditVersionInput) :
    Except LifecycleThrown (ContentPackage × String) := do
  let line ← orThrow variantNotFound (p.line input.target)
  if line.currentVersionId ≠ some input.baseVersionId then throw (versionConflict input.target)
  if ¬ input.intent.all (keepsContextRefs p input) then throw contextRefsChanged
  let baseVersion ← orThrow (versionNotFound "The ContentPackage version was not found.")
    (line.versions.find? (·.id = input.baseVersionId))
  if input.target = .package ∧
      baseVersion.sourceRef.any contentPackageVersionSourceRefIsReadOnly then
    throw sourceRefReadOnly
  if p.status ∉ editableStatuses then throw (notEditable input.target)
  if input.changes.orderedAssetIds.any (· ∉ editableAssetIds p input.target) then
    throw (assetNotOwned input.target)
  let changes := input.changes.inherit baseVersion
  if ¬ changes.pagesIllustrated then
    throw (invalidAsset
      "An edited image-text note must preserve one page-ordered image Asset per page.")
  let versionId := editedVersionId host line.ownerId input.baseVersionId changes input.intent
  let delivery ← orThrow .zod
    ((exportUseDelivery p changes input.intent versionId).mapM QuickEditExportUseDelivery.parse)
  let version := editedVersion input changes versionId delivery
  let parsed ← orThrow .zod
    ((p.push input.target version input.timestamp).parse host.isDatetime)
  return (parsed, versionId)

structure RollbackVersionInput where
  targetVersionId : String
  timestamp : String
  userId : String

/-- The version a rollback makes: what of the target it copies. -/
def restoredVersion (input : RollbackVersionInput) (target : ContentPackageVersion)
    (versionId : String) : ContentPackageVersion where
  body := target.body
  conversionHook := truthy target.conversionHook
  createdAt := input.timestamp
  createdBy := some input.userId
  derivedFromVersionId := some input.targetVersionId
  id := versionId
  orderedAssetIds := target.orderedAssetIds
  revertedFromVersionId := some input.targetVersionId
  source := some .rollback_restored
  title := target.title
  topics := target.topics

/-- `variant.versions.some((version) => version.id === targetVersionId)`. -/
def ContentPackageVariant.holds (versionId : String) (variant : ContentPackageVariant) : Bool :=
  variant.versions.any (·.id = versionId)

/-- The id of a restored version; a current version that is not there prints as `undefined`. -/
def restoredVersionId (variant : Option ContentPackageVariant) (targetVersionId : String) :
    String :=
  let current := (variant.map (·.currentVersionId) <|> p.currentVersionId).getD "undefined"
  (variant.map (·.id)).getD p.id ++ "-rollback-" ++
    host.digest (targetVersionId ++ ":" ++ current)

def rollbackContentPackageLifecycleVersion (input : RollbackVersionInput) :
    Except LifecycleThrown (ContentPackage × String) := do
  if p.status = .cancelled then
    throw (transitionConflict "A cancelled ContentPackage cannot be rolled back.")
  let targetPackageVersion := p.versions.find? (·.id = input.targetVersionId)
  let variant := p.variants.find? (·.holds input.targetVersionId)
  let targetVariantVersion := variant.bind fun variant =>
    variant.versions.find? (·.id = input.targetVersionId)
  let target ← orThrow (versionNotFound "The target ContentPackage version was not found.")
    (targetPackageVersion <|> targetVariantVersion)
  if p.currentVersionId = some input.targetVersionId ∨
      variant.any (·.currentVersionId = input.targetVersionId) then
    return (p, input.targetVersionId)
  let versionId := restoredVersionId host p variant input.targetVersionId
  let restored := restoredVersion input target versionId
  let updated := if variant.isSome then
      p.pushVariant (·.holds input.targetVersionId) restored input.timestamp
    else p.pushOwn restored input.timestamp
  let parsed ← orThrow .zod (updated.parse host.isDatetime)
  return (parsed, versionId)

/-! ## Runs of calls -/

inductive VersionCall
  | edit (input : EditVersionInput)
  | rollback (input : RollbackVersionInput)

def VersionCall.answer : VersionCall → Except LifecycleThrown (ContentPackage × String)
  | .edit input => editContentPackageLifecycleVersion host p input
  | .rollback input => rollbackContentPackageLifecycleVersion host p input

/-- The package after a call: what it answers, and as it was where it throws. -/
def ContentPackage.next (call : VersionCall) : ContentPackage :=
  match call.answer host p with
  | .ok (updated, _) => updated
  | .error _ => p

end Calls

end MeiyeAgent
