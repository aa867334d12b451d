import MeiyeAgent.Harness.PaidConfirmation
import MeiyeAgent.Operations.ContextCompiler

/-!
# Harness/FactSatisfaction — a model says which facts a recipe has

The facts a rights port authorises are shown to a model, which answers with the references it takes
and the kinds it misses.  A second call says whether what is missing is critical.  Either call may
answer with anything, or throw; the port may answer each of its calls as it likes.

* `AssessedWell` — what an answer may say.
* `assessment_holds` — **a model authorises no facts**, whatever it answers.
-/

namespace MeiyeAgent

open Effect

/-! ## Outputs of the model -/

def storeFactKinds : List StoreFactKind :=
  [.service, .price, .discount, .group_buy, .qualification, .fulfillment, .staff_experience,
    .customer_case, .other]

/-- `STORE_FACT_KIND_LABELS`. -/
def StoreFactKind.label : StoreFactKind → String
  | .service => "服务项目" | .price => "价格" | .discount => "优惠" | .group_buy => "团购信息"
  | .qualification => "资质" | .fulfillment => "履约信息" | .staff_experience => "员工经验"
  | .customer_case => "顾客案例" | .other => "其他门店信息"

inductive FactSatisfactionStatus
  | satisfied | partial_ | unsatisfied
  deriving DecidableEq

def FactSatisfactionStatus.text : FactSatisfactionStatus → String
  | .satisfied => "satisfied" | .partial_ => "partial" | .unsatisfied => "unsatisfied"

inductive FactCriticality
  | critical | optional
  deriving DecidableEq

def FactCriticality.text : FactCriticality → String
  | .critical => "critical" | .optional => "optional"

/-- An object of some fields only. -/
def strictFields (names : List String) : Json → Option (List (String × Json))
  | .object fields => if fields.all (·.1 ∈ names) then some fields else none
  | _ => none

/-- `z.enum`. -/
def parseEnum {α : Type} (values : List α) (text : α → String) (json : Json) : Option α := do
  let name ← json.text?
  values.find? (text · = name)

/-- `z.array`. -/
def parseArray {α : Type} (parse : Json → Option α) : Json → Option (List α)
  | .array items => items.mapM parse
  | _ => none

structure FactSatisfactionOutput where
  status : FactSatisfactionStatus
  matchedFactRefs : List String
  missingFactTypes : List StoreFactKind
  deriving DecidableEq

/-- `factSatisfactionOutputSchema.parse`. -/
def FactSatisfactionOutput.parse (output : Json) : Option FactSatisfactionOutput := do
  let fields ← strictFields ["status", "matchedFactRefs", "missingFactTypes"] output
  let json := Json.object fields
  let status ← parseEnum [.satisfied, .partial_, .unsatisfied] FactSatisfactionStatus.text
    (← json.field? "status")
  let matchedFactRefs ← parseArray (fun item => item.text?.bind parseTrimmed)
    (← json.field? "matchedFactRefs")
  let missingFactTypes ← parseArray (parseEnum storeFactKinds StoreFactKind.text)
    (← json.field? "missingFactTypes")
  guard (status = .satisfied ↔ missingFactTypes = [])
  return { status, matchedFactRefs, missingFactTypes }

/-- `factCriticalityOutputSchema.parse`. -/
def FactCriticality.parse (output : Json) : Option FactCriticality := do
  let fields ← strictFields ["criticality"] output
  let criticality ← (Json.object fields).field? "criticality"
  parseEnum [.critical, .optional] FactCriticality.text criticality

/-! ## Ports -/

structure StructuredNodeRequest where
  effectIdempotencyKey : String
  schemaName : String
  schemaRevision : String
  instructions : String
  prompt : String
  deriving DecidableEq

/-- What the model answers to a request, or that it throws. -/
abbrev StructuredNodeRunner (ε : Type) := StructuredNodeRequest → Except ε Json

structure FactRightsRequest where
  workspaceId : String
  rightsRevision : ContextSourceRevision
  fact : FactSnapshot
  deriving DecidableEq

/-- What the rights port answers to its `n`-th call. -/
abbrev FactRightsAuthorizationPort (ε : Type) := Nat → FactRightsRequest → Except ε Bool

inductive FactPromptKey
  | factSatisfaction | factCriticality
  deriving DecidableEq

def FactPromptKey.text : FactPromptKey → String
  | .factSatisfaction => "factSatisfaction" | .factCriticality => "factCriticality"

structure FactSatisfactionInput where
  workflowId : String
  workflowRevision : Int
  intent : String
  factTypes : List StoreFactKind
  bundle : ContextBundlePayload
  at_ : String
  skipMerchantAsk : Bool := false
  /-- the frozen contents -/
  prompts : FactPromptKey → Option String := fun _ => none

inductive FactSatisfactionError (ε : Type)
  | missingPin (message : String)
  | rights (error : ε)
  deriving DecidableEq

/-! ## Answers -/

inductive FactSatisfactionAction
  | execute | conservative_guidance | ask_user | execute_with_notice
  deriving DecidableEq

structure RecipeFactSatisfaction where
  status : FactSatisfactionStatus
  action : FactSatisfactionAction
  factRefs : List String
  missingFactTypes : List StoreFactKind := []
  guidance : Option String := none
  question : Option QuestionCard := none
  /-- the kinds asked to be confirmed by `asset_intake.confirm_fact` -/
  ledgerIntake : Option (List StoreFactKind) := none
  resultNotice : Option String := none
  deriving DecidableEq

def conservativeGuidance (missingFactTypes : List StoreFactKind) : RecipeFactSatisfaction where
  status := .unsatisfied
  action := .conservative_guidance
  factRefs := []
  missingFactTypes
  guidance := some "缺少可授权、可核对的当前事实，请先补充或确认资料。"

/-! ## Facts -/

def isReferenceEligibleFactSnapshot (contribution : ResolvedContextValue) : Bool :=
  contribution.factSnapshot.isSome ∧ contribution.layer = .current_fact ∧
    contribution.pool = .store_personal

section Assessment

variable {ε : Type} (host : Host) (runner : StructuredNodeRunner ε)
  (rights : FactRightsAuthorizationPort ε)

/-- No revocation, effective and not expired. -/
def FactSnapshot.isCurrent (fact : FactSnapshot) (at_ : String) : Bool :=
  !fact.revoked && Num.le (host.dateParse fact.effectiveFrom) (host.dateParse at_) &&
    match fact.expiresAt with
    | none => true
    | some expiresAt => Num.gt (host.dateParse expiresAt) (host.dateParse at_)

/-- The snapshots the rights port is asked about, in the order the dimension lists them. -/
def factCandidates (bundle : ContextBundlePayload) (at_ : String) :
    List (ResolvedContextValue × FactSnapshot) :=
  ((bundle.dimensions .store_facts_assets).entries.map (·.2)).filterMap fun item =>
    if isReferenceEligibleFactSnapshot item then
      (item.factSnapshot.filter (·.isCurrent host at_)).map fun fact => (item, fact)
    else none

def eligibleFacts (bundle : ContextBundlePayload) (at_ : String) :
    Except ε (List (ResolvedContextValue × FactSnapshot)) := do
  let authorized ← (factCandidates host bundle at_).zipIdx.mapM fun (candidate, n) => do
    return (candidate, ← rights n ⟨bundle.workspaceId, bundle.sourceRevisions.rights, candidate.2⟩)
  return (authorized.filter (·.2)).map (·.1)

/-- A fact as the model is shown it. -/
def eligibleFactJson : ResolvedContextValue × FactSnapshot → Json
  | (item, fact) => .object [("sourceRef", .text item.sourceRef), ("kind", .text fact.kind.text),
      ("value", item.value.val), ("source", fact.source.toJson),
      ("effectiveFrom", .text fact.effectiveFrom),
      ("expiresAt", (fact.expiresAt.map Json.text).getD .null)]

/-! ## The assessment -/

def missingPinMessage (promptKey : FactPromptKey) : String :=
  "Fact satisfaction requires the frozen prompt pin " ++ promptKey.text ++
    "; refusing to substitute a builtin prompt."

/-- A pin that is missing or blank. -/
def FactSatisfactionInput.lacksPin (input : FactSatisfactionInput) (promptKey : FactPromptKey) :
    Bool :=
  (input.prompts promptKey).all Text.isBlank

def requireFactPromptContent (input : FactSatisfactionInput) (promptKey : FactPromptKey) :
    Except (FactSatisfactionError ε) String :=
  match (input.prompts promptKey).filter (!Text.isBlank ·) with
  | some content => .ok content
  | none => .error (.missingPin (missingPinMessage promptKey))

/-- The first call. -/
def satisfactionRequest (input : FactSatisfactionInput) (instructions : String)
    (facts : List (ResolvedContextValue × FactSnapshot)) : StructuredNodeRequest where
  effectIdempotencyKey := "wf:" ++ input.workflowId ++ ":s2:facts:0"
  schemaName := "harness_fact_satisfaction_v1"
  schemaRevision := "fact-satisfaction-v1"
  instructions
  prompt := Json.canonicalJson host (.object [("intent", .text input.intent),
    ("factTypes", .array (input.factTypes.map fun kind => .text kind.text)),
    ("facts", .array (facts.map eligibleFactJson))])

/-- The second call. -/
def criticalityRequest (input : FactSatisfactionInput) (instructions : String)
    (missingFactTypes : List StoreFactKind) : StructuredNodeRequest where
  effectIdempotencyKey := "wf:" ++ input.workflowId ++ ":s2:facts:criticality:0"
  schemaName := "harness_fact_criticality_v1"
  schemaRevision := "fact-criticality-v1"
  instructions
  prompt := Json.canonicalJson host (.object [("intent", .text input.intent),
    ("missingFactTypes", .array (missingFactTypes.map fun kind => .text kind.text))])

def missingFactLabels (missingFactTypes : List StoreFactKind) : String :=
  "、".intercalate (missingFactTypes.map StoreFactKind.label)

/-- The card of a merchant who is asked. -/
def missingFactsQuestion (input : FactSatisfactionInput) (missingFactTypes : List StoreFactKind) :
    QuestionCard where
  questionId := input.workflowId ++ ":s2:missing-facts"
  workflowId := input.workflowId
  workflowRevision := input.workflowRevision
  question := "请确认本次创作要用的" ++ missingFactLabels missingFactTypes ++ "。"
  options := []
  responseField := "store_facts"
  responseReason := "补充当前任务所需的权威事实"
  reservedCredits := none
  outline := none

/-- The kinds of the facts that bear one of the references. -/
def matchedKinds (facts : List (ResolvedContextValue × FactSnapshot)) (references : List String) :
    List StoreFactKind :=
  (facts.filter (·.1.sourceRef ∈ references)).map (·.2.kind)

/-- An output that the facts do not bear out. -/
def FactSatisfactionOutput.contradicts (assessment : FactSatisfactionOutput)
    (factTypes : List StoreFactKind) (facts : List (ResolvedContextValue × FactSnapshot)) : Bool :=
  let matched := matchedKinds facts assessment.matchedFactRefs
  let missing := assessment.missingFactTypes
  matched.any (· ∈ missing) || missing.any (· ∉ factTypes) ||
    factTypes.any (fun kind => kind ∉ matched ∧ kind ∉ missing) ||
    (assessment.status = .satisfied && factTypes.any (· ∉ matched))

/-- What is done about critical facts that are missing. -/
def askForFacts (input : FactSatisfactionInput) (assessment : FactSatisfactionOutput) :
    RecipeFactSatisfaction :=
  if input.skipMerchantAsk then
    { status := .partial_
      action := .conservative_guidance
      factRefs := assessment.matchedFactRefs
      missingFactTypes := assessment.missingFactTypes
      guidance := some "价格我先不写。缺少可核对的事实时不编造价格、日期或效果。" }
  else
    match (missingFactsQuestion input assessment.missingFactTypes).parse with
    | none => conservativeGuidance assessment.missingFactTypes
    | some question =>
      { status := .partial_
        action := .ask_user
        factRefs := assessment.matchedFactRefs
        missingFactTypes := assessment.missingFactTypes
        question := some question
        ledgerIntake := some assessment.missingFactTypes }

/-- What is done about facts that are missing. -/
def assessCriticality (input : FactSatisfactionInput) (assessment : FactSatisfactionOutput) :
    Except (FactSatisfactionError ε) RecipeFactSatisfaction := do
  let instructions ← requireFactPromptContent input .factCriticality
  match runner (criticalityRequest host input instructions assessment.missingFactTypes) with
  | .error _ => return conservativeGuidance assessment.missingFactTypes
  | .ok output =>
    match FactCriticality.parse output with
    | none => return conservativeGuidance assessment.missingFactTypes
    | some .critical => return askForFacts input assessment
    | some .optional =>
      return {
        status := .partial_
        action := .execute_with_notice
        factRefs := assessment.matchedFactRefs
        missingFactTypes := assessment.missingFactTypes
        resultNotice := some ("本次结果没有使用尚未确认的" ++
          missingFactLabels assessment.missingFactTypes ++ "。") }

/-- What is done upon an output of the first call. -/
def assessOutput (input : FactSatisfactionInput)
    (facts : List (ResolvedContextValue × FactSnapshot)) (assessment : FactSatisfactionOutput) :
    Except (FactSatisfactionError ε) RecipeFactSatisfaction :=
  if assessment.matchedFactRefs.any (· ∉ facts.map (·.1.sourceRef)) then
    return conservativeGuidance input.factTypes
  else if assessment.contradicts input.factTypes facts then
    return conservativeGuidance input.factTypes
  else
    match assessment.status with
    | .satisfied => return {
        status := .satisfied
        action := .execute
        factRefs := assessment.matchedFactRefs }
    | .unsatisfied => return conservativeGuidance assessment.missingFactTypes
    | .partial_ => assessCriticality host runner input assessment

def assessRecipeFactSatisfaction (input : FactSatisfactionInput) :
    Except (FactSatisfactionError ε) RecipeFactSatisfaction := do
  let facts ← (eligibleFacts host rights input.bundle input.at_).mapError .rights
  if input.factTypes = [] then
    return { status := .satisfied, action := .execute, factRefs := [] }
  let instructions ← requireFactPromptContent input .factSatisfaction
  match runner (satisfactionRequest host input instructions facts) with
  | .error _ => return conservativeGuidance input.factTypes
  | .ok output =>
    match FactSatisfactionOutput.parse output with
    | none => return conservativeGuidance input.factTypes
    | some assessment => assessOutput host runner input facts assessment

end Assessment

/-! ## What an answer may say -/

section Property

variable {ε : Type} (host : Host) (rights : FactRightsAuthorizationPort ε)
  (input : FactSatisfactionInput) (answer : RecipeFactSatisfaction)

/-- **A fact that may be referred to**, and that the rights port authorises in its call. -/
structure AuthorisedFact (item : ResolvedContextValue) (fact : FactSnapshot) : Prop where
  listed : ∃ key, (key, item) ∈ (input.bundle.dimensions .store_facts_assets).entries
  snapshot : item.factSnapshot = some fact
  layer : item.layer = .current_fact
  pool : item.pool = .store_personal
  notRevoked : fact.revoked = false
  effective : Num.le (host.dateParse fact.effectiveFrom) (host.dateParse input.at_) = true
  unexpired : ∀ expiresAt, fact.expiresAt = some expiresAt →
    Num.gt (host.dateParse expiresAt) (host.dateParse input.at_) = true
  authorised : ∃ n, (factCandidates host input.bundle input.at_)[n]? = some (item, fact) ∧
    rights n ⟨input.bundle.workspaceId, input.bundle.sourceRevisions.rights, fact⟩ = .ok true

/-- A kind of the facts that are returned. -/
def ReturnedKind (kind : StoreFactKind) : Prop :=
  ∃ item fact, AuthorisedFact host rights input item fact ∧ item.sourceRef ∈ answer.factRefs ∧
    fact.kind = kind

/-- **What an answer may say.** -/
structure AssessedWell : Prop where
  authorised : ∀ reference ∈ answer.factRefs, ∃ item fact,
    AuthorisedFact host rights input item fact ∧ item.sourceRef = reference
  executes : answer.action = .execute → ∀ kind ∈ input.factTypes,
    ReturnedKind host rights input answer kind
  misses : answer.action = .execute_with_notice ∨ answer.action = .ask_user →
    answer.missingFactTypes ≠ [] ∧
    (∀ kind ∈ answer.missingFactTypes,
      kind ∈ input.factTypes ∧ ¬ ReturnedKind host rights input answer kind) ∧
    ∀ kind ∈ input.factTypes,
      kind ∈ answer.missingFactTypes ∨ ReturnedKind host rights input answer kind
  guides : answer.action = .conservative_guidance → answer.guidance.isSome = true

/-- **An outcome**: an answer, or an error of the rights port or for a missing prompt pin. -/
def AssessmentHolds :
    Except (FactSatisfactionError ε) RecipeFactSatisfaction → Prop
  | .ok answer => AssessedWell host rights input answer
  | .error (.rights error) => ∃ n item fact,
    (factCandidates host input.bundle input.at_)[n]? = some (item, fact) ∧
    rights n ⟨input.bundle.workspaceId, input.bundle.sourceRevisions.rights, fact⟩ = .error error
  | .error (.missingPin message) => input.factTypes ≠ [] ∧
    ∃ promptKey, message = missingPinMessage promptKey ∧ input.lacksPin promptKey = true

end Property

/-! ## Answers are well -/

section Proofs

variable {ε : Type} {host : Host} {runner : StructuredNodeRunner ε}
  {rights : FactRightsAuthorizationPort ε} {input : FactSatisfactionInput}
  {facts : List (ResolvedContextValue × FactSnapshot)} {item : ResolvedContextValue}
  {fact : FactSnapshot} {assessment : FactSatisfactionOutput} {answer : RecipeFactSatisfaction}

/-- A check that fails fails on an element. -/
theorem error_of_mapM_eq_error {α β ε : Type} {f : α → Except ε β} {e : ε} :
    ∀ {l : List α}, l.mapM f = .error e → ∃ a ∈ l, f a = .error e
  | [], h => nomatch h
  | a :: l, h => by
    rw [List.mapM_cons] at h
    cases hfirst : f a with
    | error e' =>
      rw [hfirst] at h
      obtain rfl := Except.error.inj h
      exact ⟨a, List.mem_cons_self, hfirst⟩
    | ok b =>
      rw [hfirst] at h
      cases hrest : l.mapM f with
      | error e' =>
        obtain ⟨a', hmem, herror⟩ := error_of_mapM_eq_error hrest
        simp only [hrest, bind, Except.bind, Except.error.injEq] at h
        exact ⟨a', List.mem_cons_of_mem _ hmem, h ▸ herror⟩
      | ok bs =>
        simp only [hrest, bind, Except.bind, pure, Except.pure, reduceCtorEq] at h

/-- What an element answers is among what the list answers. -/
theorem mem_of_ok {α β ε : Type} {f : α → Except ε β} {l : List α} {r : List β} {a : α} {b : β}
    (h : l.mapM f = .ok r) (hmem : a ∈ l) (hb : f a = .ok b) : b ∈ r := by
  induction list_mapM_eq_ok.mp h with
  | nil => exact absurd hmem List.not_mem_nil
  | cons hf hrest ih =>
    rcases List.mem_cons.mp hmem with rfl | hmem
    · obtain rfl := Except.ok.inj (hb.symm.trans hf)
      exact List.mem_cons_self
    · exact List.mem_cons_of_mem _ (ih (list_mapM_eq_ok.mpr hrest) hmem)

/-- A candidate is a current fact of the store. -/
theorem mem_factCandidates {bundle : ContextBundlePayload} {at_ : String}
    (h : (item, fact) ∈ factCandidates host bundle at_) :
    (∃ key, (key, item) ∈ (bundle.dimensions .store_facts_assets).entries) ∧
      (item.factSnapshot = some fact ∧ item.layer = .current_fact ∧ item.pool = .store_personal) ∧
      fact.revoked = false ∧
      Num.le (host.dateParse fact.effectiveFrom) (host.dateParse at_) = true ∧
      ∀ expiresAt, fact.expiresAt = some expiresAt →
        Num.gt (host.dateParse expiresAt) (host.dateParse at_) = true := by
  obtain ⟨item', hitem, h⟩ := List.mem_filterMap.mp h
  obtain ⟨⟨key, _⟩, hmem, rfl⟩ := List.mem_map.mp hitem
  split at h
  · next heligible =>
    obtain ⟨-, hlayer, hpool⟩ := of_decide_eq_true heligible
    obtain ⟨fact', hfact, h⟩ := Option.map_eq_some_iff.mp h
    obtain ⟨rfl, rfl⟩ := Prod.mk.inj h
    obtain ⟨hsome, hcurrent⟩ := Option.filter_eq_some_iff.mp hfact
    rw [FactSnapshot.isCurrent, Bool.and_eq_true, Bool.and_eq_true, Bool.not_eq_true'] at hcurrent
    obtain ⟨⟨hnotRevoked, heffective⟩, hexpires⟩ := hcurrent
    refine ⟨⟨key, hmem⟩, ⟨hsome, hlayer, hpool⟩, hnotRevoked, heffective, fun expiresAt heq => ?_⟩
    rwa [heq] at hexpires
  · exact nomatch h

/-- **The facts shown to the model** are those that may be referred to. -/
theorem mem_eligibleFacts (h : eligibleFacts host rights input.bundle input.at_ = .ok facts) :
    (item, fact) ∈ facts ↔ AuthorisedFact host rights input item fact := by
  rw [eligibleFacts, bind_eq_ok] at h
  obtain ⟨authorized, hmap, h⟩ := h
  obtain rfl := Except.ok.inj h
  have hmem : (item, fact) ∈ (authorized.filter (·.2)).map (·.1) ↔
      ((item, fact), true) ∈ authorized := by
    simp
  rw [hmem]
  constructor
  · intro hmem
    obtain ⟨⟨⟨item', fact'⟩, n⟩, hcandidate, hcall⟩ := mem_of_mapM_eq_ok hmap _ hmem
    obtain ⟨answer, hanswer, hpair⟩ := bind_eq_ok.mp hcall
    obtain ⟨hsame, rfl⟩ := Prod.mk.inj (pure_eq_ok.mp hpair)
    obtain ⟨rfl, rfl⟩ := Prod.mk.inj hsame
    have hget := List.mem_zipIdx_iff_getElem?.mp hcandidate
    obtain ⟨hlisted, ⟨hsnapshot, hlayer, hpool⟩, hnotRevoked, heffective, hunexpired⟩ :=
      mem_factCandidates (List.mem_of_getElem? hget)
    exact ⟨hlisted, hsnapshot, hlayer, hpool, hnotRevoked, heffective, hunexpired, n, hget, hanswer⟩
  · rintro ⟨-, -, -, -, -, -, -, n, hget, hanswer⟩
    have hcandidate : ((item, fact), n) ∈ (factCandidates host input.bundle input.at_).zipIdx :=
      List.mem_zipIdx_iff_getElem?.mpr hget
    exact mem_of_ok hmap hcandidate (bind_eq_ok.mpr ⟨true, hanswer, rfl⟩)

theorem error_of_eligibleFacts {error : ε}
    (h : eligibleFacts host rights input.bundle input.at_ = .error error) :
    ∃ n item fact, (factCandidates host input.bundle input.at_)[n]? = some (item, fact) ∧
      rights n ⟨input.bundle.workspaceId, input.bundle.sourceRevisions.rights, fact⟩ =
        .error error := by
  rw [eligibleFacts] at h
  cases hmap : (factCandidates host input.bundle input.at_).zipIdx.mapM fun (candidate, n) => do
      return (candidate, ← rights n ⟨input.bundle.workspaceId,
        input.bundle.sourceRevisions.rights, candidate.2⟩) with
  | ok authorized =>
    rw [hmap] at h
    exact nomatch h
  | error e =>
    rw [hmap] at h
    obtain rfl := Except.error.inj h
    obtain ⟨⟨⟨item, fact⟩, n⟩, hmem, hcall⟩ := error_of_mapM_eq_error hmap
    refine ⟨n, item, fact, List.mem_zipIdx_iff_getElem?.mp hmem, ?_⟩
    dsimp only at hcall
    cases hanswer : rights n ⟨input.bundle.workspaceId, input.bundle.sourceRevisions.rights,
        fact⟩ with
    | ok answer =>
      rw [hanswer] at hcall
      exact nomatch hcall
    | error e' =>
      rw [hanswer] at hcall
      exact congrArg Except.error (Except.error.inj hcall)

/-- Guidance names no fact. -/
theorem assessedWell_conservativeGuidance (missing : List StoreFactKind) :
    AssessedWell host rights input (conservativeGuidance missing) :=
  ⟨fun _ h => absurd h List.not_mem_nil, nofun, nofun, fun _ => rfl⟩

/-- **An output that the facts bear out**: its references are of facts that may be referred to, and
its missing kinds are the required ones that none of them has. -/
structure BornOut (host : Host) (rights : FactRightsAuthorizationPort ε)
    (input : FactSatisfactionInput) (assessment : FactSatisfactionOutput) : Prop where
  authorised : ∀ reference ∈ assessment.matchedFactRefs, ∃ item fact,
    AuthorisedFact host rights input item fact ∧ item.sourceRef = reference
  missing : ∀ kind ∈ assessment.missingFactTypes, kind ∈ input.factTypes ∧
    ∀ item fact, AuthorisedFact host rights input item fact →
      item.sourceRef ∈ assessment.matchedFactRefs → fact.kind ≠ kind
  covered : ∀ kind ∈ input.factTypes, kind ∈ assessment.missingFactTypes ∨ ∃ item fact,
    AuthorisedFact host rights input item fact ∧ item.sourceRef ∈ assessment.matchedFactRefs ∧
      fact.kind = kind

theorem mem_matchedKinds {references : List String} {kind : StoreFactKind} :
    kind ∈ matchedKinds facts references ↔
      ∃ item fact, (item, fact) ∈ facts ∧ item.sourceRef ∈ references ∧ fact.kind = kind := by
  simp [matchedKinds, and_assoc]

theorem bornOut (h : eligibleFacts host rights input.bundle input.at_ = .ok facts)
    (hrefs : assessment.matchedFactRefs.any (· ∉ facts.map (·.1.sourceRef)) = false)
    (hkinds : assessment.contradicts input.factTypes facts = false) :
    BornOut host rights input assessment := by
  simp only [FactSatisfactionOutput.contradicts, Bool.or_eq_false_iff, List.any_eq_false,
    decide_eq_true_eq, not_not, not_and, mem_matchedKinds, mem_eligibleFacts h] at hrefs hkinds
  obtain ⟨⟨⟨hdisjoint, hrequired⟩, hcovers⟩, -⟩ := hkinds
  refine ⟨fun reference hmem => ?_, fun kind hkind => ⟨hrequired kind hkind, ?_⟩,
    fun kind hkind => ?_⟩
  · obtain ⟨⟨item, fact⟩, hfact, rfl⟩ := List.mem_map.mp (hrefs reference hmem)
    exact ⟨item, fact, (mem_eligibleFacts h).mp hfact, rfl⟩
  · rintro item fact hfact href rfl
    exact hdisjoint _ ⟨item, fact, hfact, href, rfl⟩ hkind
  · by_cases hmatched : ∃ item fact, AuthorisedFact host rights input item fact ∧
        item.sourceRef ∈ assessment.matchedFactRefs ∧ fact.kind = kind
    · exact .inr hmatched
    · exact .inl (hcovers kind hkind hmatched)

/-- An answer that takes over an output which is born out. -/
theorem BornOut.assessedWell (h : BornOut host rights input assessment)
    (hmissing : assessment.missingFactTypes ≠ [])
    (hrefs : answer.factRefs = assessment.matchedFactRefs)
    (htypes : answer.missingFactTypes = assessment.missingFactTypes)
    (haction : answer.action ≠ .execute)
    (hguides : answer.action = .conservative_guidance → answer.guidance.isSome = true) :
    AssessedWell host rights input answer := by
  refine ⟨hrefs ▸ h.authorised, fun hexecute => absurd hexecute haction, fun _ => ?_, hguides⟩
  simp only [ReturnedKind, hrefs, htypes]
  refine ⟨hmissing, fun kind hkind => ⟨(h.missing kind hkind).1, ?_⟩, h.covered⟩
  rintro ⟨item, fact, hfact, href, heq⟩
  exact (h.missing kind hkind).2 item fact hfact href heq

theorem askForFacts_well (h : BornOut host rights input assessment)
    (hmissing : assessment.missingFactTypes ≠ []) :
    AssessedWell host rights input (askForFacts input assessment) := by
  unfold askForFacts
  split
  · exact h.assessedWell hmissing rfl rfl nofun fun _ => rfl
  · split
    · exact assessedWell_conservativeGuidance _
    · exact h.assessedWell hmissing rfl rfl nofun nofun

/-- A pin that is there, or the error for it. -/
theorem requireFactPromptContent_cases (input : FactSatisfactionInput) (promptKey : FactPromptKey) :
    (∃ content, @requireFactPromptContent ε input promptKey = .ok content) ∨
      input.lacksPin promptKey = true ∧
        @requireFactPromptContent ε input promptKey =
          .error (.missingPin (missingPinMessage promptKey)) := by
  unfold requireFactPromptContent FactSatisfactionInput.lacksPin
  cases hpin : input.prompts promptKey with
  | none => exact .inr ⟨rfl, rfl⟩
  | some content =>
    cases hblank : Text.isBlank content with
    | false => exact .inl ⟨content, by rw [Option.filter_some, hblank]; rfl⟩
    | true => exact .inr ⟨hblank, by rw [Option.filter_some, hblank]; rfl⟩

theorem assessCriticality_holds (htypes : input.factTypes ≠ [])
    (h : BornOut host rights input assessment) (hmissing : assessment.missingFactTypes ≠ []) :
    AssessmentHolds host rights input (assessCriticality host runner input assessment) := by
  rw [assessCriticality]
  rcases @requireFactPromptContent_cases ε input .factCriticality with
    ⟨instructions, hpin⟩ | ⟨hlacks, hpin⟩ <;> rw [hpin]
  · change AssessmentHolds host rights input (match runner _ with | .error _ => _ | .ok _ => _)
    split
    · exact assessedWell_conservativeGuidance _
    · split
      · exact assessedWell_conservativeGuidance _
      · exact askForFacts_well h hmissing
      · exact h.assessedWell hmissing rfl rfl nofun nofun
  · exact ⟨htypes, .factCriticality, rfl, hlacks⟩

/-- The status of an output agrees with its missing kinds. -/
theorem status_agrees {output : Json}
    (h : FactSatisfactionOutput.parse output = some assessment) :
    assessment.status = .satisfied ↔ assessment.missingFactTypes = [] := by
  simp only [FactSatisfactionOutput.parse, Option.bind_eq_bind, Option.bind_eq_some_iff,
    Option.pure_def, Option.some.injEq] at h
  obtain ⟨_, -, _, -, _, -, _, -, _, -, _, -, _, -, _, hagrees, rfl⟩ := h
  by_contra hnot
  rw [guard, if_neg hnot] at hagrees
  exact nomatch hagrees

theorem assessOutput_holds (htypes : input.factTypes ≠ [])
    (h : eligibleFacts host rights input.bundle input.at_ = .ok facts)
    (hstatus : assessment.status = .satisfied ↔ assessment.missingFactTypes = []) :
    AssessmentHolds host rights input (assessOutput host runner input facts assessment) := by
  unfold assessOutput
  split
  · exact assessedWell_conservativeGuidance _
  next hrefs =>
  split
  · exact assessedWell_conservativeGuidance _
  next hkinds =>
  have hborn := bornOut h (Bool.eq_false_iff.mpr hrefs) (Bool.eq_false_iff.mpr hkinds)
  split
  · next hsatisfied =>
    refine ⟨hborn.authorised, fun _ kind hkind => ?_, nofun, nofun⟩
    refine (hborn.covered kind hkind).resolve_left ?_
    rw [hstatus.mp hsatisfied]
    exact List.not_mem_nil
  · exact assessedWell_conservativeGuidance _
  · next hpartial =>
    refine assessCriticality_holds htypes hborn fun hnone => ?_
    exact nomatch hpartial.symm.trans (hstatus.mpr hnone)

/-- **A model authorises no facts**: what an answer refers to may be referred to, it executes only
if no required kind is missing, and an assessment throws only for the rights port or a pin. -/
theorem assessment_holds (host : Host) (runner : StructuredNodeRunner ε)
    (rights : FactRightsAuthorizationPort ε) (input : FactSatisfactionInput) :
    AssessmentHolds host rights input (assessRecipeFactSatisfaction host runner rights input) := by
  rw [assessRecipeFactSatisfaction]
  cases hfacts : eligibleFacts host rights input.bundle input.at_ with
  | error error => exact error_of_eligibleFacts hfacts
  | ok facts =>
    change AssessmentHolds host rights input (if input.factTypes = [] then _ else _)
    split
    · next hnone =>
      refine ⟨fun _ hmem => absurd hmem List.not_mem_nil, fun _ kind hkind => ?_, nofun, nofun⟩
      rw [hnone] at hkind
      exact absurd hkind List.not_mem_nil
    next htypes =>
    rcases @requireFactPromptContent_cases ε input .factSatisfaction with
      ⟨instructions, hpin⟩ | ⟨hlacks, hpin⟩ <;> rw [hpin]
    · change AssessmentHolds host rights input (match runner _ with | .error _ => _ | .ok _ => _)
      split
      · exact assessedWell_conservativeGuidance _
      · split
        · exact assessedWell_conservativeGuidance _
        · next hparse => exact assessOutput_holds htypes hfacts (status_agrees hparse)
    · exact ⟨htypes, .factSatisfaction, rfl, hlacks⟩

/-- A bundle without facts. -/
def emptyBundle : ContextBundlePayload where
  workspaceId := "workspace"
  taskId := "task"
  sourceRevisions := ⟨.number 1, .number 1, .number 1, .number 1, .number 1, .number 1, .number 1,
    .number 1⟩
  dimensions _ := .empty
  referencedFactRevisions := []

/-- **Without its frozen prompt the assessment throws** instead of guiding. -/
theorem not_assessesAlways : ¬ ∀ (runner : StructuredNodeRunner Unit)
    (rights : FactRightsAuthorizationPort Unit) (input : FactSatisfactionInput),
    ∃ answer, assessRecipeFactSatisfaction isoHost runner rights input = .ok answer ∧
      AssessedWell isoHost rights input answer := by
  intro h
  obtain ⟨answer, hanswer, -⟩ := h (fun _ => .error ()) (fun _ _ => .ok false)
    { workflowId := "workflow", workflowRevision := 1, intent := "", factTypes := [.price]
      bundle := emptyBundle, at_ := "2026-01-01T00:00:00.000Z" }
  exact nomatch hanswer

end Proofs

end MeiyeAgent
