import MeiyeAgent.Foundation.Schemas
import MeiyeAgent.Machinery.OrderedMap

/-!
# AgentDomain/Artifact — a client's copy of an artifact, and the updates it applies

An update is a snapshot of the whole body, or a delta to the body of the revision it names.  A
client keeps the head it has reached and the finished heads before it.  What the source answers is a
value; what it throws is a `ZodError`, `none` here.
-/

namespace MeiyeAgent

/-! ## Bodies -/

inductive ArtifactType
  | plan
  | copy
  | note
  | image
  | video
  | publish
  deriving DecidableEq

def ArtifactType.text : ArtifactType → String
  | .plan => "plan"
  | .copy => "copy"
  | .note => "note"
  | .image => "image"
  | .video => "video"
  | .publish => "publish"

inductive ArtifactStatus
  | skeleton
  | partial_
  | ready
  | failed
  deriving DecidableEq

inductive ArtifactMediaStage
  | pending
  | generating
  | ready
  | failed
  deriving DecidableEq

inductive NotePageStage
  | skeleton
  | copy
  | image
  deriving DecidableEq

inductive CopyBlockRole
  | title
  | body
  | topic
  | cta
  | other
  deriving DecidableEq

structure NotePageState where
  pageIndex : Nat
  stage : NotePageStage
  title : Option String := none
  body : Option String := none
  imageStatus : Option ArtifactMediaStage := none
  imageRef : Option String := none
  deriving DecidableEq

structure VideoSceneState where
  sceneIndex : Nat
  storyboard : Option String := none
  keyframeStatus : Option ArtifactMediaStage := none
  keyframeRef : Option String := none
  deriving DecidableEq

structure CopyBlockState where
  blockId : String
  role : CopyBlockRole
  text : Option String := none
  status : Option ArtifactStatus := none
  deriving DecidableEq

structure PlanSectionState where
  sectionId : String
  title : Option String := none
  body : Option String := none
  status : Option ArtifactStatus := none
  deriving DecidableEq

structure PublishItemState where
  itemId : String
  label : String
  ready : Bool
  deriving DecidableEq

/-- `artifactFullBodySchema`. -/
inductive ArtifactFullBody
  | note (pages : List NotePageState)
  | video (scenes : List VideoSceneState) (title : Option String)
  | copy (blocks : List CopyBlockState)
  | plan (sections : List PlanSectionState)
  | image (imageStatus : ArtifactMediaStage) (imageRef caption : Option String)
  | publish (items : List PublishItemState)
  deriving DecidableEq

/-- `notePagePatchSchema`. -/
structure NotePagePatch where
  pageIndex : Nat
  stage : Option NotePageStage := none
  title : Option String := none
  body : Option String := none
  imageStatus : Option ArtifactMediaStage := none
  imageRef : Option String := none
  deriving DecidableEq

/-- `artifactPatchBodySchema`: every key of a patch may be absent. -/
inductive ArtifactPatchBody
  | note (pages : Option (List NotePagePatch))
  | video (scenes : Option (List VideoSceneState)) (title : Option String)
  | copy (blocks : Option (List CopyBlockState))
  | plan (sections : Option (List PlanSectionState))
  | image (imageStatus : Option ArtifactMediaStage) (imageRef caption : Option String)
  | publish (items : Option (List PublishItemState))
  deriving DecidableEq

def fullMatchesType : ArtifactType → ArtifactFullBody → Bool
  | .note, .note _ => true
  | .video, .video _ _ => true
  | .copy, .copy _ => true
  | .plan, .plan _ => true
  | .image, .image _ _ _ => true
  | .publish, .publish _ => true
  | _, _ => false

/-- `Object.keys(patch).length === 0`. -/
def ArtifactPatchBody.isEmpty : ArtifactPatchBody → Bool
  | note none => true
  | video none none => true
  | copy none => true
  | plan none => true
  | image none none none => true
  | publish none => true
  | _ => false

def patchMatchesType : ArtifactType → ArtifactPatchBody → Bool
  | .note, .note (some _) => true
  | .video, .video (some _) _ => true
  | .video, .video _ (some _) => true
  | .copy, .copy (some _) => true
  | .plan, .plan (some _) => true
  | .image, .image (some _) _ _ => true
  | .image, .image _ (some _) _ => true
  | .image, .image _ _ (some _) => true
  | .publish, .publish (some _) => true
  | _, patch => patch.isEmpty

/-! ## What the schemas accept -/

def parseIndex (most index : Nat) : Option Nat := if index ≤ most then some index else none

def NotePageState.parse (page : NotePageState) : Option NotePageState := do
  let pageIndex ← parseIndex 50 page.pageIndex
  let title ← page.title.mapM (parseTrimmedMost 500)
  let body ← page.body.mapM (parseMost 8000)
  let imageRef ← page.imageRef.mapM (parseTrimmedMost 500)
  return { page with pageIndex, title, body, imageRef }

def VideoSceneState.parse (scene : VideoSceneState) : Option VideoSceneState := do
  let sceneIndex ← parseIndex 200 scene.sceneIndex
  let storyboard ← scene.storyboard.mapM (parseMost 4000)
  let keyframeRef ← scene.keyframeRef.mapM (parseTrimmedMost 500)
  return { scene with sceneIndex, storyboard, keyframeRef }

def CopyBlockState.parse (block : CopyBlockState) : Option CopyBlockState := do
  let blockId ← parseTrimmed block.blockId
  let text ← block.text.mapM (parseMost 8000)
  return { block with blockId, text }

def PlanSectionState.parse (section' : PlanSectionState) : Option PlanSectionState := do
  let sectionId ← parseTrimmed section'.sectionId
  let title ← section'.title.mapM (parseTrimmedMost 500)
  let body ← section'.body.mapM (parseMost 8000)
  return { section' with sectionId, title, body }

def PublishItemState.parse (item : PublishItemState) : Option PublishItemState := do
  let itemId ← parseTrimmed item.itemId
  let label ← parseTrimmedMost 200 item.label
  return { item with itemId, label }

/-- `z.array(schema).max(most)`. -/
def parseItems {α : Type} (parse : α → Option α) (most : Nat) (items : List α) :
    Option (List α) :=
  if items.length ≤ most then items.mapM parse else none

/-- The schema of the body of each type. -/
def ArtifactFullBody.parse : ArtifactFullBody → Option ArtifactFullBody
  | note pages => (parseItems NotePageState.parse 50 pages).map note
  | video scenes title => do
    let scenes ← parseItems VideoSceneState.parse 200 scenes
    return video scenes (← title.mapM (parseTrimmedMost 500))
  | copy blocks => (parseItems CopyBlockState.parse 50 blocks).map copy
  | plan sections => (parseItems PlanSectionState.parse 50 sections).map plan
  | image imageStatus imageRef caption => do
    return image imageStatus (← imageRef.mapM (parseTrimmedMost 500))
      (← caption.mapM (parseMost 2000))
  | publish items => (parseItems PublishItemState.parse 50 items).map publish

/-! ## Merging -/

/-- **A merge by key**: each patch replaces what is there under its key, or is added behind it. -/
def mergeByKey {κ α π : Type} [DecidableEq κ] (key : α → κ) (patchKey : π → κ)
    (next : π → Option α → Option α) (current : List α) (patches : List π) :
    Option (OrderedMap κ α) :=
  patches.foldlM (fun merged patch =>
      (next patch (merged.get? (patchKey patch))).map (merged.set (patchKey patch)))
    (OrderedMap.empty.setAll (current.map fun item => (key item, item)))

def mergeNotePages (current : List NotePageState) (patches : List NotePagePatch) :
    Option (List NotePageState) :=
  (mergeByKey NotePageState.pageIndex NotePagePatch.pageIndex (fun patch prev =>
      NotePageState.parse {
        pageIndex := patch.pageIndex
        stage := (patch.stage.or (prev.map (·.stage))).getD .skeleton
        title := patch.title.or (prev.bind (·.title))
        body := patch.body.or (prev.bind (·.body))
        imageStatus := patch.imageStatus.or (prev.bind (·.imageStatus))
        imageRef := patch.imageRef.or (prev.bind (·.imageRef)) }) current patches).map fun merged =>
    sortBy (fun a b => some ((a.pageIndex : Int) - b.pageIndex)) merged.values

def mergeVideoScenes (current patches : List VideoSceneState) : Option (List VideoSceneState) :=
  (mergeByKey VideoSceneState.sceneIndex VideoSceneState.sceneIndex (fun patch prev =>
      VideoSceneState.parse {
        sceneIndex := patch.sceneIndex
        storyboard := patch.storyboard.or (prev.bind (·.storyboard))
        keyframeStatus := patch.keyframeStatus.or (prev.bind (·.keyframeStatus))
        keyframeRef := patch.keyframeRef.or (prev.bind (·.keyframeRef)) }) current patches).map
    fun merged => sortBy (fun a b => some ((a.sceneIndex : Int) - b.sceneIndex)) merged.values

def mergeCopyBlocks (current patches : List CopyBlockState) : Option (List CopyBlockState) :=
  (mergeByKey CopyBlockState.blockId CopyBlockState.blockId (fun patch prev =>
      CopyBlockState.parse {
        blockId := patch.blockId
        role := patch.role
        text := patch.text.or (prev.bind (·.text))
        status := patch.status.or (prev.bind (·.status)) }) current patches).map
    OrderedMap.values

def mergePlanSections (current patches : List PlanSectionState) :
    Option (List PlanSectionState) :=
  (mergeByKey PlanSectionState.sectionId PlanSectionState.sectionId (fun patch prev =>
      PlanSectionState.parse {
        sectionId := patch.sectionId
        title := patch.title.or (prev.bind (·.title))
        body := patch.body.or (prev.bind (·.body))
        status := patch.status.or (prev.bind (·.status)) }) current patches).map
    OrderedMap.values

/-- An item is replaced whole. -/
def mergePublishItems (current patches : List PublishItemState) :
    Option (List PublishItemState) :=
  (mergeByKey PublishItemState.itemId PublishItemState.itemId (fun patch _ => patch.parse) current
    patches).map OrderedMap.values

/-- A merge of the items a patch has. -/
def mergeOptional {α π : Type} (merge : List α → List π → Option (List α)) (current : List α) :
    Option (List π) → Option (List α)
  | some patches => merge current patches
  | none => some current

/-! ### What a body holds -/

namespace ArtifactFullBody

def pages : ArtifactFullBody → List NotePageState
  | note pages => pages
  | _ => []

def scenes : ArtifactFullBody → List VideoSceneState
  | video scenes _ => scenes
  | _ => []

def title : ArtifactFullBody → Option String
  | video _ title => title
  | _ => none

def blocks : ArtifactFullBody → List CopyBlockState
  | copy blocks => blocks
  | _ => []

def sections : ArtifactFullBody → List PlanSectionState
  | plan sections => sections
  | _ => []

def items : ArtifactFullBody → List PublishItemState
  | publish items => items
  | _ => []

def imageStatus : ArtifactFullBody → ArtifactMediaStage
  | image imageStatus _ _ => imageStatus
  | _ => .pending

def imageRef : ArtifactFullBody → Option String
  | image _ imageRef _ => imageRef
  | _ => none

def caption : ArtifactFullBody → Option String
  | image _ _ caption => caption
  | _ => none

end ArtifactFullBody

/-- `emptyBodyForType`. -/
def emptyBodyForType : ArtifactType → ArtifactFullBody
  | .note => .note []
  | .video => .video [] none
  | .copy => .copy []
  | .plan => .plan []
  | .image => .image .pending none none
  | .publish => .publish []

/-- The patched body, before its schema. -/
def patchedBody (artifactType : ArtifactType) (body : ArtifactFullBody)
    (patch : ArtifactPatchBody) : Option ArtifactFullBody :=
  match artifactType with
  | .note =>
    let patches := match patch with
      | .note pages => pages
      | _ => none
    (mergeOptional mergeNotePages body.pages patches).map .note
  | .video =>
    let (patches, title) := match patch with
      | .video scenes title => (scenes, title)
      | _ => (none, none)
    (mergeOptional mergeVideoScenes body.scenes patches).map
      fun scenes => .video scenes (title.or body.title)
  | .copy =>
    let patches := match patch with
      | .copy blocks => blocks
      | _ => none
    (mergeOptional mergeCopyBlocks body.blocks patches).map .copy
  | .plan =>
    let patches := match patch with
      | .plan sections => sections
      | _ => none
    (mergeOptional mergePlanSections body.sections patches).map .plan
  | .image =>
    match patch with
    | .image imageStatus imageRef caption => some (.image (imageStatus.getD body.imageStatus)
      (imageRef.or body.imageRef) (caption.or body.caption))
    | _ => some (.image body.imageStatus body.imageRef body.caption)
  | .publish =>
    let patches := match patch with
      | .publish items => items
      | _ => none
    (mergeOptional mergePublishItems body.items patches).map .publish

/-- `applyPatchToBody`: `some none` where the patch is of another type. -/
def applyPatchToBody (artifactType : ArtifactType) (body : ArtifactFullBody)
    (patch : ArtifactPatchBody) : Option (Option ArtifactFullBody) :=
  if patchMatchesType artifactType patch then
    ((patchedBody artifactType body patch).bind ArtifactFullBody.parse).map some
  else some none

/-! ## Updates -/

/-- What an update brings. -/
inductive ArtifactUpdateContent
  | snapshot (full : ArtifactFullBody)
  | delta (baseRevision : Nat) (patch : ArtifactPatchBody)
  deriving DecidableEq

/-- The check of the type, and of the base of a delta. -/
def ArtifactUpdateContent.accepted (artifactType : ArtifactType) (revision : Nat) :
    ArtifactUpdateContent → Bool
  | snapshot full => fullMatchesType artifactType full
  | delta baseRevision patch => patchMatchesType artifactType patch && baseRevision < revision

/-- **An update on the wire**: `artifactUpdateWireSchema`. -/
structure ArtifactUpdateWire where
  artifactId : String
  artifactType : ArtifactType
  revision : Nat
  status : ArtifactStatus
  summary : Option String := none
  parentRevision : Option Nat := none
  content : ArtifactUpdateContent
  revision_pos : 0 < revision := by decide
  accepted : content.accepted artifactType revision = true := by decide
  deriving DecidableEq

/-- A finished head, kept for browsing. -/
structure ArtifactVersionRecord where
  revision : Nat
  status : ArtifactStatus
  body : ArtifactFullBody
  summary : Option String
  parentRevision : Option Nat
  deriving DecidableEq

/-- **What a client has**: `ArtifactProjectionState`. -/
structure ArtifactProjectionState where
  artifactId : String
  artifactType : ArtifactType
  revision : Nat
  status : ArtifactStatus
  body : ArtifactFullBody
  summary : Option String
  parentRevision : Option Nat
  versionHistory : List ArtifactVersionRecord
  deriving DecidableEq

inductive ApplyArtifactUpdateFailureReason
  | needs_snapshot
  | silent_overwrite
  | type_mismatch
  | invalid_patch
  deriving DecidableEq

inductive ApplyArtifactUpdateResult
  | ok (state : ArtifactProjectionState) (duplicate : Bool)
  | failed (reason : ApplyArtifactUpdateFailureReason) (detail : String)
  deriving DecidableEq

namespace ArtifactProjectionState

/-- The head as it is archived. -/
def versionRecord (state : ArtifactProjectionState) : ArtifactVersionRecord where
  revision := state.revision
  status := state.status
  body := state.body
  summary := state.summary
  parentRevision := state.parentRevision

/-- Ready or failed. -/
def isTerminal (state : ArtifactProjectionState) : Bool :=
  state.status = .ready ∨ state.status = .failed

/-- `archiveIfTerminal`. -/
def archiveIfTerminal (state : ArtifactProjectionState) : List ArtifactVersionRecord :=
  if !state.isTerminal then state.versionHistory
  else if state.versionHistory.any (·.revision = state.revision) then state.versionHistory
  else state.versionHistory ++ [state.versionRecord]

end ArtifactProjectionState

/-- The head an update makes. -/
def ArtifactUpdateWire.head (update : ArtifactUpdateWire) (body : ArtifactFullBody)
    (summary : Option String) (versionHistory : List ArtifactVersionRecord) :
    ArtifactProjectionState where
  artifactId := update.artifactId
  artifactType := update.artifactType
  revision := update.revision
  status := update.status
  body
  summary
  parentRevision := update.parentRevision
  versionHistory

/-- The result of a patch that has been applied. -/
def patchResult (head : ArtifactFullBody → ArtifactProjectionState) :
    Option ArtifactFullBody → ApplyArtifactUpdateResult
  | some body => .ok (head body) false
  | none => .failed .invalid_patch "patch failed for artifactType"

/-- The update of a client that has nothing. -/
def applyCold (update : ArtifactUpdateWire) : Option ApplyArtifactUpdateResult :=
  match update.content with
  | .delta baseRevision patch =>
    if baseRevision ≠ 0 then some (.failed .needs_snapshot "delta without local head")
    else (applyPatchToBody update.artifactType (emptyBodyForType update.artifactType) patch).map
      (patchResult fun body => update.head body update.summary [])
  | .snapshot full =>
    if !fullMatchesType update.artifactType full then
      some (.failed .type_mismatch "snapshot full mismatch")
    else some (.ok (update.head full update.summary []) false)

/-- The update that goes past a head. -/
def applyAdvance (current : ArtifactProjectionState) (update : ArtifactUpdateWire) :
    Option ApplyArtifactUpdateResult :=
  match update.content with
  | .delta baseRevision patch =>
    if baseRevision ≠ current.revision then
      some (.failed .needs_snapshot s!"baseRevision {baseRevision} != head {current.revision}")
    else (applyPatchToBody update.artifactType current.body patch).map (patchResult fun body =>
      update.head body (update.summary.or current.summary) current.archiveIfTerminal)
  | .snapshot full =>
    if !fullMatchesType update.artifactType full then
      some (.failed .type_mismatch "snapshot full mismatch")
    else some (.ok (update.head full update.summary current.archiveIfTerminal) false)

/-- `applyArtifactUpdate`. -/
def applyArtifactUpdate (current : Option ArtifactProjectionState) (update : ArtifactUpdateWire) :
    Option ApplyArtifactUpdateResult :=
  match current with
  | none => applyCold update
  | some current =>
    if current.artifactId ≠ update.artifactId then
      some (.failed .type_mismatch "artifactId mismatch")
    else if current.artifactType ≠ update.artifactType then
      some (.failed .type_mismatch
        s!"artifactType {current.artifactType.text} vs {update.artifactType.text}")
    else if update.revision ≤ current.revision then some (.ok current true)
    else if current.status = .ready ∧ update.parentRevision ≠ some current.revision then
      some (.failed .silent_overwrite
        "ready artifact requires parentRevision=current.revision for derived version")
    else applyAdvance current update

end MeiyeAgent
