import MeiyeAgent.Foundation.JsonText
import MeiyeAgent.Harness.SensitiveScan
import MeiyeAgent.Machinery.Picking

/-!
# Harness/PolicyGates — the gates a candidate passes

A candidate is delivered when every gate lets it pass: what it refers to is of its workspace, what
it states has a source, what it shows may be used, who speaks is registered, prices and benefits are
current, no sensitive word is left, and what goes out has been approved.  Claims are declared, or
found in the visible text, where they take their source from the facts a store has confirmed.  What
the patterns find in a text is a parameter; an absent list is an empty one.
-/

namespace MeiyeAgent

/-! ## What is validated -/

/-- The gates. -/
inductive HarnessGateId
  | cross_workspace_lineage | critical_fact_source | subject_asset_rights | expression_identity
  | price_benefit_freshness | sensitive_words | external_revision | external_action_approval
  deriving DecidableEq

/-- What the content is about to go through. -/
inductive HarnessPolicyPhase
  | execution | delivery | export_ | publish | paid_action
  deriving DecidableEq

inductive FactClaimKind
  | price | benefit | qualification | offer | other
  deriving DecidableEq

/-- A claim of the content, and the source it rests on. -/
structure HarnessFactClaim where
  kind : FactClaimKind
  value : String
  sourceRef : Option String := none
  deriving DecidableEq

inductive VisibleClaimPatternKind
  | benefit | offer | price | qualification
  deriving DecidableEq

def VisibleClaimPatternKind.toFactClaimKind : VisibleClaimPatternKind → FactClaimKind
  | .benefit => .benefit
  | .offer => .offer
  | .price => .price
  | .qualification => .qualification

/-- A claim found in a text. -/
structure VisibleClaimPatternMatch where
  kind : VisibleClaimPatternKind
  value : String
  deriving DecidableEq

/-- A claim found in a field of the visible text. -/
structure VisibleClaim extends VisibleClaimPatternMatch where
  field : String
  deriving DecidableEq

/-- The claims of all visible texts, and what they were read from. -/
structure VisibleClaimExtraction where
  claims : List VisibleClaim
  inputHash : String
  deriving DecidableEq

/-- What the content is for. -/
inductive IntendedUse
  | internal_draft | public_content | paid_promotion
  deriving DecidableEq

structure VisibleText where
  field : String
  text : String
  deriving DecidableEq

/-- The content that is looked at. -/
structure PolicyCandidate where
  workspaceId : String
  intendedUse : IntendedUse
  factClaims : List HarnessFactClaim := []
  assetRefs : List String := []
  expressionIdentityRef : Option String := none
  visibleText : List VisibleText := []
  deriving DecidableEq

inductive PolicySourceStatus
  | current | expired | withdrawn
  deriving DecidableEq

/-- A source of facts, as it stands. -/
structure PolicySourceRef where
  id : String
  workspaceId : String
  status : PolicySourceStatus
  expiresAt : Option String := none
  deriving DecidableEq

inductive PolicyRightsStatus
  | authorized | unknown | withdrawn
  deriving DecidableEq

/-- The rights on an asset, as they stand. -/
structure PolicyRightsRef where
  assetId : String
  workspaceId : String
  status : PolicyRightsStatus
  allowedUses : List IntendedUse
  deriving DecidableEq

inductive PolicyIdentityStatus
  | registered | unregistered | withdrawn
  deriving DecidableEq

/-- An identity content may speak with. -/
structure PolicyIdentityRef where
  id : String
  workspaceId : String
  status : PolicyIdentityStatus
  deriving DecidableEq

inductive ExternalActionKind
  | export_ | publish | paid_action
  deriving DecidableEq

/-- The action that is about to be taken. -/
structure PolicyActionContext where
  kind : ExternalActionKind
  target : String
  revision : Int
  deriving DecidableEq

inductive PolicyApprovalStatus
  | approved | revoked
  deriving DecidableEq

/-- An approval of one action. -/
structure PolicyApprovalReceipt where
  status : PolicyApprovalStatus
  actionKind : ExternalActionKind
  target : String
  revision : Int
  deriving DecidableEq

/-- All that the gates look at. -/
structure HarnessPolicyInput where
  phase : HarnessPolicyPhase
  evaluatedAt : Option String := none
  /-- the workspace of the bundle -/
  workspaceId : String
  candidate : PolicyCandidate
  trustedFactClaims : List HarnessFactClaim := []
  sourceRefs : List PolicySourceRef := []
  rightsRefs : List PolicyRightsRef := []
  identityRefs : List PolicyIdentityRef := []
  sensitiveLexicon : List SensitiveWordRecord := []
  actionContext : Option PolicyActionContext := none
  approvalReceipt : Option PolicyApprovalReceipt := none
  currentRevision : Option Int := none
  deriving DecidableEq

/-- Why a gate stays shut, and what could be done instead. -/
structure HarnessGateFailure where
  gateId : HarnessGateId
  reason : String
  alternativePath : List String
  triggeredClaims : List VisibleClaim := []
  sensitiveCheckBar : Option SensitiveCheckBar := none
  deriving DecidableEq

/-- Whether all gates are open. -/
structure HarnessPolicyResult where
  passed : Bool
  failures : List HarnessGateFailure
  claimExtraction : Option VisibleClaimExtraction
  deriving DecidableEq

/-- **The host of the gates**: that of a scan, with classes of characters, numbers as
`String(Number(text))` spells them, `JSON.parse`, a digest, and what the patterns find in a
text. -/
structure PolicyHost extends Host, ScanHost where
  toLowerCase : String → String
  isLetterOrNumber : Char → Bool
  canonicalNumericValue : String → String
  isFinite : String → Bool
  parseJson : String → Option Json
  digest : String → String
  extractVisibleClaimPatternMatches : String → List VisibleClaimPatternMatch

/-! ## Numbers of a claim -/

/-- Where a reader of numbers stands: outside of one, behind a sign, in the digits before the point,
behind the point, or in those after it. -/
inductive NumberReader
  | outside
  | signed (sign : Char)
  | whole (read : List Char)
  | pointed (read : List Char)
  | decimal (read : List Char)

/-- The matches of `[-+]?\d+(?:\.\d+)?`, from left to right. -/
def numbersFrom : NumberReader → List Char → List (List Char)
  | .outside, [] => []
  | .signed _, [] => []
  | .whole read, [] => [read]
  | .pointed read, [] => [read]
  | .decimal read, [] => [read]
  | .outside, c :: cs =>
    if c.isDigit then numbersFrom (.whole [c]) cs
    else if c = '-' ∨ c = '+' then numbersFrom (.signed c) cs
    else numbersFrom .outside cs
  | .signed sign, c :: cs =>
    if c.isDigit then numbersFrom (.whole [sign, c]) cs
    else if c = '-' ∨ c = '+' then numbersFrom (.signed c) cs
    else numbersFrom .outside cs
  | .whole read, c :: cs =>
    if c.isDigit then numbersFrom (.whole (read ++ [c])) cs
    else if c = '.' then numbersFrom (.pointed read) cs
    else if c = '-' ∨ c = '+' then read :: numbersFrom (.signed c) cs
    else read :: numbersFrom .outside cs
  | .pointed read, c :: cs =>
    if c.isDigit then numbersFrom (.decimal (read ++ ['.', c])) cs
    else if c = '-' ∨ c = '+' then read :: numbersFrom (.signed c) cs
    else read :: numbersFrom .outside cs
  | .decimal read, c :: cs =>
    if c.isDigit then numbersFrom (.decimal (read ++ [c])) cs
    else if c = '-' ∨ c = '+' then read :: numbersFrom (.signed c) cs
    else read :: numbersFrom .outside cs

example : (numbersFrom .outside "a-1.5.2, +3".toList).map String.ofList = ["-1.5", "2", "+3"] := by
  decide +kernel

/-- `ISO_DATE_VALUE`. -/
def isIsoDateValue (value : String) : Bool :=
  match value.toList with
  | a :: b :: c :: d :: '-' :: e :: f :: '-' :: g :: h :: rest =>
    [a, b, c, d, e, f, g, h].all Char.isDigit &&
      match rest with
      | [] => true
      | mark :: rest => (mark = 'T' || Text.isSpace mark) &&
          rest.all fun c => ¬ c ∈ ['\n', '\r', Char.ofNat 0x2028, Char.ofNat 0x2029]
  | _ => false

section Gates

variable (host : PolicyHost)

/-- `TEMPORAL_FACT_KEY`. -/
def isTemporalFactKey (key : String) : Bool :=
  ["at", "date", "time", "until", "from", "expires", "expired", "effective", "recorded", "captured",
    "valid", "revision"].any fun suffix =>
      suffix.toList.isSuffixOf (key.toList.map host.foldCase)

/-- The numbers of a text, in one form. -/
def comparableNumericValues (value : String) : List String :=
  (numbersFrom .outside (host.nfkc value).toList).map fun number =>
    host.canonicalNumericValue (String.ofList number)

mutual

/-- The numbers of a JSON value under a key, as a set. -/
def numericValuesFromUnknown (key : String) : Json → List String
  | .number digits =>
    if isTemporalFactKey host key then []
    else if host.isFinite digits then [host.canonicalNumericValue digits] else []
  | .text value =>
    if isTemporalFactKey host key then []
    else if isIsoDateValue value then [] else comparableNumericValues host value
  | .array items =>
    if isTemporalFactKey host key then [] else numericValuesFromItems key items
  | .object fields =>
    if isTemporalFactKey host key then [] else numericValuesFromFields fields
  | .null => []
  | .bool _ => []

def numericValuesFromItems (key : String) : List Json → List String
  | [] => []
  | item :: items => numericValuesFromUnknown key item ++ numericValuesFromItems key items

def numericValuesFromFields : List (String × Json) → List String
  | [] => []
  | (name, value) :: fields =>
    numericValuesFromUnknown name value ++ numericValuesFromFields fields

end

/-- The numbers a trusted value holds. -/
def trustedNumericValues (value : String) : List String :=
  match host.parseJson value with
  | some json => numericValuesFromUnknown host "" json
  | none => comparableNumericValues host value

/-- The letters and digits of a value. -/
def normalizeClaimValue (value : String) : List Char :=
  (host.toLowerCase (host.nfkc value)).toList.filter host.isLetterOrNumber

/-! ## Claims in the visible text -/

/-- The kinds a claim may be backed by. -/
def compatibleKinds (trusted extracted : FactClaimKind) : Bool :=
  trusted = extracted ∨ (trusted = .offer ∧ extracted = .price) ∨
    (trusted = .price ∧ extracted = .offer) ∨ (trusted = .offer ∧ extracted = .benefit) ∨
    (trusted = .benefit ∧ extracted = .offer)

/-- A claim that is known bears out one that was found. -/
def trustedClaimSupports (trusted extracted : HarnessFactClaim) : Bool :=
  if ¬ compatibleKinds trusted.kind extracted.kind then false
  else
    let trustedValue := normalizeClaimValue host trusted.value
    let extractedValue := normalizeClaimValue host extracted.value
    let extractedNumbers := comparableNumericValues host extracted.value
    if extractedNumbers ≠ [] then
      let trustedNumbers := trustedNumericValues host trusted.value
      extractedNumbers.all (trustedNumbers.contains ·)
    else extractedValue <:+: trustedValue ∨ trustedValue <:+: extractedValue

/-- `deduplicateVisibleClaims`, behind those that have been seen. -/
def deduplicateFrom (seen : List VisibleClaim) : List VisibleClaim → List VisibleClaim
  | [] => []
  | claim :: claims =>
    if claim ∈ seen then deduplicateFrom seen claims
    else claim :: deduplicateFrom (claim :: seen) claims

def deduplicateVisibleClaims (claims : List VisibleClaim) : List VisibleClaim :=
  deduplicateFrom [] claims

def extractClaimsFromField (field text : String) : List VisibleClaim :=
  (host.extractVisibleClaimPatternMatches text).map fun found => { found with field }

/-- The claims of the visible texts, each once. -/
def extractVisibleClaims (visibleText : List VisibleText) : VisibleClaimExtraction :=
  let normalizedFields := visibleText.map fun row =>
    ({ field := Text.trim row.field, text := Text.trim row.text } : VisibleText)
  { claims := deduplicateVisibleClaims
      (normalizedFields.flatMap fun row => extractClaimsFromField host row.field row.text)
    inputHash := host.digest (String.ofList (Json.chars (.array (normalizedFields.map fun row =>
      .object [("field", .text row.field), ("text", .text row.text)])))) }

def VisibleClaim.toFactClaim (claim : VisibleClaim) (sourceRef : Option String) :
    HarnessFactClaim where
  kind := claim.kind.toFactClaimKind
  value := claim.value
  sourceRef

/-- A claim of the visible text with the source of the first trusted claim that supports it. -/
def groundedClaim (trustedFactClaims : List HarnessFactClaim) (claim : VisibleClaim) :
    HarnessFactClaim :=
  let trusted := trustedFactClaims.find? (trustedClaimSupports host · (claim.toFactClaim none))
  claim.toFactClaim (truthy (trusted.bind (·.sourceRef)))

/-- The claims found count as claims made. -/
def withExtractedVisibleClaims (input : HarnessPolicyInput)
    (extraction : VisibleClaimExtraction) : HarnessPolicyInput :=
  { input with
    candidate.factClaims := input.candidate.factClaims ++
      extraction.claims.map (groundedClaim host input.trustedFactClaims) }

/-! ## The gates -/

def failure (gateId : HarnessGateId) (reason : String) (alternativePath : List String)
    (triggeredClaims : List VisibleClaim := []) : HarnessGateFailure :=
  { gateId, reason, alternativePath, triggeredClaims }

/-- Everything belongs to the workspace of the bundle. -/
def crossWorkspaceGate (input : HarnessPolicyInput) : Option HarnessGateFailure :=
  let expected := input.workspaceId
  let mismatched := input.candidate.workspaceId ≠ expected ∨
    input.sourceRefs.any (·.workspaceId ≠ expected) ∨
    input.rightsRefs.any (·.workspaceId ≠ expected) ∨
    input.identityRefs.any (·.workspaceId ≠ expected)
  if mismatched then
    some (failure .cross_workspace_lineage "候选引用了其他门店或其他表达主体的数据，已停止该候选。"
      ["移除跨店引用", "重新编译当前门店 ContextBundle"])
  else none

def visibleClaimFailureReason (claims : List VisibleClaim) : String :=
  let kinds := claims.map (·.kind)
  let labels := [
    if .qualification ∈ kinds then some "资质" else none,
    if .price ∈ kinds ∨ .offer ∈ kinds then some "价格或优惠" else none,
    if .benefit ∈ kinds then some "权益承诺" else none].filterMap id
  "成品文案含有未被门店已确认资料支持的" ++ "、".intercalate labels ++ "，暂不能交付。"

/-- The source a claim names, where it is listed. -/
def HarnessFactClaim.listedIn (claim : HarnessFactClaim) (sourceRefs : List PolicySourceRef) :
    Bool :=
  (truthy claim.sourceRef).any ((sourceRefs.map (·.id)).contains ·)

/-- Facts that matter rest on a source that is valid. -/
def criticalFactSourceGate (input : HarnessPolicyInput)
    (claimExtraction : Option VisibleClaimExtraction) : Option HarnessGateFailure :=
  let ungrounded := input.candidate.factClaims.any fun claim =>
    claim.kind ≠ .other ∧ ¬ claim.listedIn input.sourceRefs
  if ¬ ungrounded then none
  else
    let triggeredClaims := (claimExtraction.map (·.claims)).getD [] |>.filter fun claim =>
      ¬ input.candidate.factClaims.any fun candidate =>
        candidate.kind = claim.kind.toFactClaimKind ∧ candidate.value = claim.value ∧
          candidate.listedIn input.sourceRefs
    if triggeredClaims ≠ [] then
      some (failure .critical_fact_source (visibleClaimFailureReason triggeredClaims)
        ["核对并补充门店已确认资料", "删除或改写无依据内容"] triggeredClaims)
    else
      some (failure .critical_fact_source
        "候选中的关键经营事实没有可追溯来源，不能作为真实内容交付。"
        ["补充权威事实来源", "删除无来源主张"])

/-- Whether a rights reference allows the use. -/
def PolicyRightsRef.allows (rights : PolicyRightsRef) (intendedUse : IntendedUse) : Bool :=
  rights.status = .authorized ∧ intendedUse ∈ rights.allowedUses

/-- Every asset may be used for the purpose. -/
def subjectAssetRightsGate (input : HarnessPolicyInput) : Option HarnessGateFailure :=
  let unauthorized := input.candidate.assetRefs.any fun assetId =>
    ¬ (Picking.mapped (·.assetId) input.rightsRefs assetId).any
      (·.allows input.candidate.intendedUse)
  if unauthorized then
    some (failure .subject_asset_rights "候选使用了未授权或用途不匹配的主体素材，已停止该候选。"
      ["换安全素材", "匿名化", "请求授权", "放弃该表达"])
  else none

/-- The identity is registered. -/
def expressionIdentityGate (input : HarnessPolicyInput) : Option HarnessGateFailure :=
  match truthy input.candidate.expressionIdentityRef with
  | none => none
  | some identityRef =>
    if (input.identityRefs.find? (·.id = identityRef)).any (·.status = .registered) then none
    else some (failure .expression_identity "候选声称了未登记或已撤回的表达身份，不能冒用该身份。"
      ["改用门店中性表达", "登记并核验表达身份"])

/-- Whether a source is out of date at an instant; a date that cannot be read is not. -/
def PolicySourceRef.staleAt (source : PolicySourceRef) (evaluatedAt : Option String) : Bool :=
  source.status ≠ .current ∨
    Num.le (source.expiresAt.bind host.dateParse) (evaluatedAt.bind host.dateParse)

/-- The kinds of claim whose source has to be current. -/
def FactClaimKind.expires (kind : FactClaimKind) : Bool := kind ∈ [.price, .benefit, .offer]

/-- Prices and benefits rest on sources that have not expired. -/
def priceBenefitFreshnessGate (input : HarnessPolicyInput) : Option HarnessGateFailure :=
  let stale := input.candidate.factClaims.any fun claim =>
    claim.kind.expires ∧
      ((truthy claim.sourceRef).bind (Picking.mapped (·.id) input.sourceRefs)).any
      fun source => source.staleAt host input.evaluatedAt
  if stale then
    some (failure .price_benefit_freshness "候选使用了已过期或撤回的价格、优惠或权益。"
      ["补充当前有效事实", "移除过期价格或权益"])
  else none

/-- `collectCandidateScanText`. -/
def collectCandidateScanText (candidate : PolicyCandidate) : String :=
  "\n".intercalate (((candidate.visibleText.map (·.text)) ++
    candidate.factClaims.map (·.value)).filter fun text => Text.trim text ≠ "")

/-- No text holds a word of the lexicon. -/
def sensitiveWordsGate (input : HarnessPolicyInput) :
    Except SensitiveScanError (Option HarnessGateFailure) := do
  if input.sensitiveLexicon = [] then return none
  let text := collectCandidateScanText input.candidate
  if Text.trim text = "" then return none
  let generationCheck ←
    runGenerationChainSensitiveCheck host.toScanHost text input.sensitiveLexicon
  if generationCheck.passed then return none
  let hits := generationCheck.scan.hits
  let uniqueWords := (hits.map (·.word)).reverse.dedup.reverse
  let replacements := ((hits.flatMap (·.replacements)).reverse.dedup.reverse).take 8
  let wordHints := uniqueWords.take 5
  return some { failure .sensitive_words "候选文案含有违禁词，已停止该候选。"
    ((if replacements ≠ [] then replacements else ["改写违规表述", "删除违禁词后重试"]) ++
      wordHints.map ("命中：" ++ ·)) with sensitiveCheckBar := some generationCheck.checkBar }

/-- An external action names a revision. -/
def externalRevisionGate (input : HarnessPolicyInput) : Option HarnessGateFailure :=
  let invalid := ¬ input.actionContext.any fun action =>
    some action.revision = input.currentRevision
  if invalid then
    some (failure .external_revision "准备外发的不是当前权威版本，已阻止继续。"
      ["刷新当前版本", "重新生成外发快照"])
  else none

/-- Whether a receipt approves an action. -/
def PolicyApprovalReceipt.approves (receipt : PolicyApprovalReceipt)
    (action : PolicyActionContext) : Bool :=
  receipt.status = .approved ∧ receipt.actionKind = action.kind ∧ receipt.target = action.target ∧
    receipt.revision = action.revision

/-- An external action is approved. -/
def externalApprovalGate (input : HarnessPolicyInput) : Option HarnessGateFailure :=
  match input.actionContext with
  | none => none
  | some action =>
    if action.kind = .export_ then none
    else if input.approvalReceipt.any (·.approves action) then none
    else some (failure .external_action_approval
      "公开或付费动作缺少绑定当前版本、目标与用途的一次性批准。" ["请求本次动作批准", "改为仅保存草稿"])

/-- `CONTENT_PHASE_GATE_IDS`. -/
def contentPhaseGateIds : List HarnessGateId :=
  [.cross_workspace_lineage, .critical_fact_source, .subject_asset_rights, .expression_identity,
    .price_benefit_freshness, .sensitive_words]

def contentGate (input : HarnessPolicyInput) (claimExtraction : Option VisibleClaimExtraction) :
    HarnessGateId → Except SensitiveScanError (Option HarnessGateFailure)
  | .cross_workspace_lineage => return crossWorkspaceGate input
  | .critical_fact_source => return criticalFactSourceGate input claimExtraction
  | .subject_asset_rights => return subjectAssetRightsGate input
  | .expression_identity => return expressionIdentityGate input
  | .price_benefit_freshness => return priceBenefitFreshnessGate host input
  | .sensitive_words => sensitiveWordsGate host input
  | .external_revision => return none
  | .external_action_approval => return none

/-- The phases in which something goes out. -/
def HarnessPolicyPhase.isExternal (phase : HarnessPolicyPhase) : Bool :=
  phase ∈ [.export_, .publish, .paid_action]

/-- What is found in the visible text; nothing is looked for while a candidate is made. -/
def HarnessPolicyInput.claimExtraction (input : HarnessPolicyInput) :
    Option VisibleClaimExtraction :=
  if input.phase = .execution then none
  else some (extractVisibleClaims host input.candidate.visibleText)

/-- What the gates look at. -/
def HarnessPolicyInput.policyInput (input : HarnessPolicyInput) : HarnessPolicyInput :=
  match input.claimExtraction host with
  | none => input
  | some extraction => withExtractedVisibleClaims host input extraction

def externalFailures (input : HarnessPolicyInput) : List HarnessGateFailure :=
  if input.phase.isExternal then
    match externalRevisionGate input with
    | some revisionFailure => [revisionFailure]
    | none => (externalApprovalGate input).toList
  else []

/-- **The gates**: all that stay shut, in their order. -/
def validateHarnessPolicy (input : HarnessPolicyInput) :
    Except SensitiveScanError HarnessPolicyResult := do
  let claimExtraction := input.claimExtraction host
  let policyInput := input.policyInput host
  let found ← contentPhaseGateIds.mapM (contentGate host policyInput claimExtraction)
  let failures := found.filterMap id ++ externalFailures policyInput
  return { passed := failures.isEmpty, failures, claimExtraction }

end Gates

end MeiyeAgent
