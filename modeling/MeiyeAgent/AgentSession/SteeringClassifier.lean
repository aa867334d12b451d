import MeiyeAgent.Foundation.Schemas
import MeiyeAgent.Machinery.OrderedMap

/-!
# AgentSession/SteeringClassifier — what an instruction in the middle of a run is

The classifier reads the merchant's words and the progress of the units.  The units it steers are
`steered`: the ones the signals name, else the ones the words name, else the whole note.  It is a
`derived_revision` when one of them is completed and a `future_step_patch` when none is.  `none` is
where the source throws.
-/

namespace MeiyeAgent

/-! ## Regular expressions -/

/-- Characters of one class, a number of times. -/
structure Piece where
  test : Char → Bool
  least : Nat
  most : Option Nat

/-- Pieces one after another. -/
abbrev Pattern := List Piece

namespace Pattern

/-- The characters of a text, each once. -/
def lit (text : String) : Pattern := text.toList.map fun c => ⟨(· == c), 1, some 1⟩

/-- `.` matches no line terminator. -/
def isAny (c : Char) : Bool := c.toNat ∉ [0xA, 0xD, 0x2028, 0x2029]

/-- `.{0,4}` -/
def upTo4 : Pattern := [⟨isAny, 0, some 4⟩]

/-- `.*` -/
def anything : Pattern := [⟨isAny, 0, none⟩]

/-- `\s*` -/
def spaces : Pattern := [⟨Text.isSpace, 0, none⟩]

/-- `\d+` -/
def someDigits : Pattern := [⟨Char.isDigit, 1, none⟩]

/-- The text begins with a match. -/
def begins : Pattern → List Char → Bool
  | [], _ => true
  | piece :: rest, cs => (List.range ((cs.takeWhile piece.test).length + 1)).any fun n =>
      piece.least ≤ n && piece.most.all (n ≤ ·) && begins rest (cs.drop n)

/-- `RegExp.prototype.test` of the alternatives. -/
def test (alternatives : List Pattern) (text : String) : Bool :=
  text.toList.tails.any fun cs => alternatives.any (begins · cs)

end Pattern

/-- `String.prototype.includes`. -/
def includes (text part : String) : Bool := Pattern.test [Pattern.lit part] text

section Words

open Pattern

def QUANTITY_RE : List Pattern :=
  [lit "增加" ++ upTo4 ++ lit "页", lit "加一页", lit "加页", lit "加两页", lit "多做一页",
    lit "多做几页", lit "减少" ++ upTo4 ++ lit "页", lit "少做一页",
    lit "改成" ++ spaces ++ someDigits ++ spaces ++ lit "页",
    lit "做成" ++ spaces ++ someDigits ++ spaces ++ lit "页", lit "页数", lit "数量改", lit "多生成",
    lit "少生成"]

def PLATFORM_RE : List Pattern :=
  [lit "换平台", lit "改平台", lit "换到", lit "发到", lit "改成抖音", lit "改成小红书",
    lit "换成朋友圈", lit "视频号", lit "换渠道"]

def MODEL_RE : List Pattern :=
  [lit "换模型", lit "改模型", lit "换个模型", lit "用更好的模型",
    lit "换成" ++ anything ++ lit "模型"]

def COST_RE : List Pattern :=
  [lit "加预算", lit "提高费用", lit "加积分", lit "更贵", lit "更便宜", lit "降成本", lit "加钱"]

def FACT_RE : List Pattern :=
  [lit "价格改成", lit "改价", lit "活动改", lit "日期改成", lit "换成真的", lit "事实改",
    lit "权利撤回", lit "素材撤权"]

def UNSAFE_RE : List Pattern :=
  [lit "忽略" ++ anything ++ lit "确认", lit "跳过" ++ anything ++ lit "确认",
    lit "绕过" ++ anything ++ lit "计费", lit "伪造发布", lit "自动发布", lit "代发", lit "改别人",
    lit "跨店"]

def FOLLOW_UP_RE : List Pattern :=
  [lit "做完再", lit "全部做完", lit "完成后", lit "做完以后", lit "做完之后", lit "全部完成再",
    lit "回头再", lit "等全部"]

def STEER_RE : List Pattern :=
  [lit "等下", lit "先别", lit "马上改", lit "当前", lit "立刻", lit "现在就", lit "先改"]

def COVER_RE : List Pattern := [lit "封面"]

def STYLE_RE : List Pattern :=
  [lit "换" ++ anything ++ lit "风格", lit "风格改", lit "少点字", lit "字少点", lit "别写最后两个名额",
    lit "不要写最后"]

end Words

def CN_ORDINALS : List (Char × Nat) :=
  [('一', 1), ('二', 2), ('三', 3), ('四', 4), ('五', 5), ('六', 6), ('七', 7), ('八', 8), ('九', 9),
    ('十', 10)]

/-- The class of the numeral in `PAGE_RE`. -/
def isOrdinalChar (c : Char) : Bool := c.isDigit || CN_ORDINALS.any (·.1 == c)

/-- The numerals `PAGE_RE` captures, first to last.  White space, numerals and the last character
exclude one another, so a match takes all it can of each; the fuel is the length of the text. -/
def pageNumerals : Nat → List Char → List (List Char)
  | 0, _ => []
  | _ + 1, [] => []
  | fuel + 1, c :: cs =>
    let inner := cs.dropWhile Text.isSpace
    let numeral := inner.takeWhile isOrdinalChar
    let rest := (inner.dropWhile isOrdinalChar).dropWhile Text.isSpace
    if c = '第' ∧ numeral ≠ [] ∧ rest.head? = some '页' then
      numeral :: pageNumerals fuel rest.tail
    else pageNumerals fuel cs

def parseOrdinal (raw : List Char) : Option Nat :=
  if raw ≠ [] ∧ raw.all Char.isDigit then some (Nat.ofDigitChars 10 raw 0)
  else match raw with
    | [c] => CN_ORDINALS.lookup c
    | _ => none

/-! ## Units and signals -/

inductive SteeringQueueMode
  | steer
  | followUp
  deriving DecidableEq

inductive SteeringUnitStatus
  | pending
  | running
  | completed
  | failed
  deriving DecidableEq

structure SteeringUnitProgress where
  unitId : String
  status : SteeringUnitStatus
  label : Option String := none
  pageIndex : Option Int := none
  deriving DecidableEq

/-- What upstream parsing adds; signals that are absent are the ones that say nothing. -/
structure SteeringClassifySignals where
  affectedUnitIds : List String := []
  changesQuantity : Bool := false
  changesPlatform : Bool := false
  changesModel : Bool := false
  changesCost : Bool := false
  changesFacts : Bool := false
  conflictReason : Option String := none

structure SteeringClassifyInput where
  instruction : String
  units : List SteeringUnitProgress
  queueModeHint : Option SteeringQueueMode := none
  signals : SteeringClassifySignals := {}

/-- `steeringClassificationSchema`: a patch never asks for a new quote. -/
inductive SteeringClassification
  | futureStepPatch (affectedUnits : List String)
  | derivedRevision (completedUnits : List String) (requiresRequote : Bool)
  | planChange (reason : String)
  | unsafeOrConflicting (reason : String)
  deriving DecidableEq

structure SteeringClassifyResult where
  classification : SteeringClassification
  affectedUnitIds : List String
  queueMode : SteeringQueueMode
  impactSummary : String
  preservedUnitIds : List String
  deriving DecidableEq

/-- `executionUnitIdSchema`. -/
def asUnitId (id : String) : Option String := parseTrimmed id

def resolveQueueMode (instruction : String) (hint : Option SteeringQueueMode) : SteeringQueueMode :=
  hint.getD <|
    if Pattern.test FOLLOW_UP_RE instruction then .followUp
    else if Pattern.test STEER_RE instruction then .steer else .steer

/-! ## The units an instruction steers -/

/-- The units by page: of two units of one page the later. -/
def unitsByPage (units : List SteeringUnitProgress) : OrderedMap Int SteeringUnitProgress :=
  OrderedMap.empty.setAll (units.filterMap fun unit => unit.pageIndex.map (·, unit))

def SteeringUnitProgress.labelled (unit : SteeringUnitProgress) (part : String) : Bool :=
  unit.label.any (includes · part)

def findCoverUnit (units : List SteeringUnitProgress) : Option SteeringUnitProgress :=
  (units.find? fun u => u.labelled "封面" || u.pageIndex == some 0).or
    (units.find? fun u => includes u.unitId.toLower "cover")

/-- The units hit, by their ids. -/
abbrev SteeringHits := OrderedMap String SteeringUnitProgress

def SteeringHits.hit (hits : SteeringHits) (unit : SteeringUnitProgress) : SteeringHits :=
  hits.set unit.unitId unit

/-- The unit a page numeral names. -/
def unitOfPage (units : List SteeringUnitProgress) (ordinal : Nat) : Option SteeringUnitProgress :=
  ((unitsByPage units).get? ((ordinal : Int) - 1)).or
    (units.find? (·.labelled ("第" ++ toString ordinal ++ "页")))

/-- The units the words point at, the cover first. -/
def pointedUnits (instruction : String) (units : List SteeringUnitProgress) :
    List SteeringUnitProgress :=
  (if Pattern.test COVER_RE instruction then (findCoverUnit units).toList else []) ++
    (pageNumerals instruction.length instruction.toList).filterMap fun raw =>
      (parseOrdinal raw).bind (unitOfPage units)

def inferAffectedFromInstruction (instruction : String) (units : List SteeringUnitProgress) :
    List SteeringUnitProgress :=
  let hits : SteeringHits := (pointedUnits instruction units).foldl SteeringHits.hit .empty
  -- style changes without page targets: prefer incomplete units
  let hits := if hits.entries = [] ∧ Pattern.test STYLE_RE instruction then
    (units.filter fun u => u.status = .pending ∨ u.status = .running).foldl SteeringHits.hit hits
    else hits
  hits.values

def isPlanChangeInstruction (instruction : String) (signals : SteeringClassifySignals) : Bool :=
  signals.changesQuantity || signals.changesPlatform || signals.changesModel ||
    signals.changesCost || signals.changesFacts || Pattern.test QUANTITY_RE instruction ||
    Pattern.test PLATFORM_RE instruction || Pattern.test MODEL_RE instruction ||
    Pattern.test COST_RE instruction || Pattern.test FACT_RE instruction

/-- The test of the first branch: `''` is no conflict. -/
def isUnsafeInstruction (instruction : String) (signals : SteeringClassifySignals) : Bool :=
  signals.conflictReason.any (· ≠ "") || Pattern.test UNSAFE_RE instruction

/-- The units named, by the signals where these name any. -/
def namedUnits (instruction : String) (units : List SteeringUnitProgress)
    (signals : SteeringClassifySignals) : List SteeringUnitProgress :=
  if signals.affectedUnitIds ≠ [] then
    units.filter fun u => signals.affectedUnitIds.contains u.unitId
  else inferAffectedFromInstruction instruction units

/-- `affected`: where no unit is named, the whole note. -/
def steered (instruction : String) (units : List SteeringUnitProgress)
    (signals : SteeringClassifySignals) : List SteeringUnitProgress :=
  if namedUnits instruction units signals = [] then units else namedUnits instruction units signals

/-! ## The impact line -/

def targetName (affected : List SteeringUnitProgress) : String :=
  match affected.map fun u =>
    match u.label.filter (· ≠ ""), u.pageIndex with
    | some label, _ => label
    | none, some index => if index = 0 then "封面" else "第" ++ toString (index + 1) ++ "页"
    | none, none => "目标单元" with
  | [] => "目标范围"
  | names => Text.join '和' names

def impactLine (classification : SteeringClassification)
    (affected preserved : List SteeringUnitProgress) (wholeNote : Bool) : String :=
  match classification with
  | .unsafeOrConflicting reason => "该指令无法安全执行：" ++ reason ++ "。请修正后再试。"
  | .planChange reason =>
    "该指令会改变方案范围或费用（" ++ reason ++ "），需回到方案层重新报价并确认。"
  | .derivedRevision _ _ =>
    if wholeNote then
      "未指明页面，按整篇处理：已完成内容将产生派生版本；如只想改某一页，请指明页码。"
    else "已完成内容将产生派生版本（" ++ targetName affected ++ "）；其他页面保持不变。"
  | .futureStepPatch _ =>
    if wholeNote then "未指明页面，按整篇处理：将应用到全部页面；如只想改某一页，请指明页码。"
    else "已应用到" ++ targetName affected ++ (if preserved ≠ [] then "；其他页面不变" else "") ++
      "。"

/-! ## The classifier -/

/-- The result of an instruction that steers no unit. -/
def refusedSteering (units : List SteeringUnitProgress) (queueMode : SteeringQueueMode)
    (classification : SteeringClassification) : Option SteeringClassifyResult := do
  let preserved ← units.mapM fun u => asUnitId u.unitId
  pure ⟨classification, [], queueMode, impactLine classification [] units false, preserved⟩

def unsafeReason (signals : SteeringClassifySignals) : String :=
  match (signals.conflictReason.map Text.trim).filter (· ≠ "") with
  | some reason => reason
  | none => "指令与安全边界冲突，需要商家修正"

def planChangeReason (instruction : String) (signals : SteeringClassifySignals) : String :=
  if Pattern.test QUANTITY_RE instruction then "数量变化"
  else if Pattern.test PLATFORM_RE instruction then "平台变化"
  else if Pattern.test MODEL_RE instruction then "模型变化"
  else if Pattern.test COST_RE instruction then "费用变化"
  else if Pattern.test FACT_RE instruction then "事实或权利变化"
  else if signals.changesQuantity then "数量变化"
  else if signals.changesPlatform then "平台变化"
  else if signals.changesModel then "模型变化"
  else if signals.changesCost then "费用变化"
  else "方案关键字段变化"

/-- A completed unit is never overwritten in silence: its change is a derived revision. -/
def derivedSteering (affected preserved : List SteeringUnitProgress) (queueMode : SteeringQueueMode)
    (wholeNote changesCost : Bool) : Option SteeringClassifyResult := do
  let completedAffected := affected.filter (·.status = .completed)
  let futureAffected := affected.filter (·.status ≠ .completed)
  let completedUnits ← completedAffected.mapM fun u => asUnitId u.unitId
  let classification := .derivedRevision completedUnits changesCost
  let unique : SteeringHits := (completedAffected ++ futureAffected).foldl SteeringHits.hit .empty
  let affectedUnitIds ← unique.values.mapM fun u => asUnitId u.unitId
  let preservedUnitIds ← preserved.mapM fun u => asUnitId u.unitId
  pure ⟨classification, affectedUnitIds, queueMode,
    impactLine classification unique.values preserved wholeNote, preservedUnitIds⟩

/-- Units that are still to be done take the instruction as it is. -/
def patchSteering (affected preserved : List SteeringUnitProgress) (queueMode : SteeringQueueMode)
    (wholeNote : Bool) : Option SteeringClassifyResult := do
  let futureAffected := affected.filter (·.status ≠ .completed)
  let affectedUnits ← futureAffected.mapM fun u => asUnitId u.unitId
  let classification := .futureStepPatch affectedUnits
  let preservedUnitIds ← preserved.mapM fun u => asUnitId u.unitId
  pure ⟨classification, affectedUnits, queueMode,
    impactLine classification futureAffected preserved wholeNote, preservedUnitIds⟩

def classifySteeringInstruction (input : SteeringClassifyInput) : Option SteeringClassifyResult :=
  let instruction := Text.trim input.instruction
  let queueMode := resolveQueueMode instruction input.queueModeHint
  let affected := steered instruction input.units input.signals
  let preserved := input.units.filter fun u => !affected.any (·.unitId == u.unitId)
  let wholeNote := decide (namedUnits instruction input.units input.signals = [])
  if instruction = "" then none
  else if isUnsafeInstruction instruction input.signals then
    refusedSteering input.units queueMode (.unsafeOrConflicting (unsafeReason input.signals))
  else if isPlanChangeInstruction instruction input.signals then
    refusedSteering input.units queueMode
      (.planChange (planChangeReason instruction input.signals))
  else if affected = [] then
    refusedSteering input.units queueMode
      (.unsafeOrConflicting "无法确定影响范围，请指明要改的页面或步骤")
  else if affected.any (·.status = .completed) then
    derivedSteering affected preserved queueMode wholeNote input.signals.changesCost
  else patchSteering affected preserved queueMode wholeNote

end MeiyeAgent
