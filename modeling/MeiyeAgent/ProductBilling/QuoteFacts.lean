import MeiyeAgent.ProductBilling.QuoteMoney

/-!
# ProductBilling/QuoteFacts — when a rebuilt quote is the quote that was asked for

A second `buildQuote` of an id returns the stored quote if the revisions agree.  The revision is a
digest of some facts only: the workspace, the currency, the ceiling and the candidates are no part
of it.

* `FromInput` — every stored quote still has the digested facts of an input it was built from.
* `askedFor_run` — **a rebuilt quote is the one asked for exactly when the other facts agree**, and
  no ceiling falls below the confirmed amount unless `confirm` sets it there.
-/

namespace MeiyeAgent

open Effect

/-! ## What is claimed -/

/-- **The ceiling covers the confirmed amount**, which is not negative. -/
def Authorised (quote : ProductQuoteSnapshot) : Prop :=
  ∃ authorized amount, quote.authorizedCeiling = some authorized ∧
    quote.confirmedAmount = some amount ∧ 0 ≤ amount ∧ amount ≤ authorized

/-- **The quote is priced as the input asks.** -/
structure AskedFor (quote : ProductQuoteSnapshot) (input : BuildProductQuoteInput) : Prop where
  workspace : quote.workspaceId = present input.workspaceId
  currency : quote.formula.currency = present input.currency
  billingMode : quote.billingMode = input.billingMode
  authorized : quote.authorizedCeiling =
    some (input.authorizedCeiling.getD (quotedAmount input))
  amount : quote.confirmedAmount = some (quotedAmount input)
  unitRate : quote.formula.unitRate = input.unitRate
  credits : quote.creditCost = input.creditCost
  units : quote.debitUnits = input.debitUnits
  candidates : quote.frozenCandidateDeploymentIds = input.frozenCandidateDeploymentIds
  package : quote.packageContract = input.packageContract
  outputCount : quote.outputCount = input.outputCount

/-! ## The conditions -/

/-- **The facts the revision leaves out agree** between the stored quote and the input. -/
def otherFactsAgree (quote : ProductQuoteSnapshot) (input : BuildProductQuoteInput) : Bool :=
  quote.workspaceId = present input.workspaceId ∧
    quote.formula.currency = present input.currency ∧
    quote.authorizedCeiling = some (input.authorizedCeiling.getD (quotedAmount input)) ∧
    quote.frozenCandidateDeploymentIds = input.frozenCandidateDeploymentIds

/-- The input a call builds a quote from. -/
def QuoteCall.builds : QuoteCall → Option BuildProductQuoteInput
  | .buildQuote input => some input
  | .replaceReservedQuote input => some input.successor
  | _ => none

namespace ProductQuoteService

/-- Does confirming this quote set its ceiling? -/
def confirmSets (service : ProductQuoteService) (quote : ProductQuoteSnapshot)
    (input : ConfirmQuoteInput) : Bool :=
  Text.isBlank input.taskId = false ∧
    (quote.lifecycleStatus = .quoted ∨
      quote.lifecycleStatus = .confirmed ∧ quote.taskId ≠ some input.taskId) ∧
    (present quote.taskId).all (· = input.taskId) ∧
    (present (service.taskIndex.get? input.taskId)).all (· = input.quoteId)

/-- **The condition on a call**: a ceiling that is confirmed covers the confirmed amount. -/
def confirmMeets (service : ProductQuoteService) (call : TimedCall) : Bool :=
  match call.2 with
  | .confirm input => (service.quotes.get? input.quoteId).all fun quote =>
      confirmSets service quote input → input.authorizedCeiling.all fun authorized =>
        quote.confirmedAmount.all (· ≤ authorized)
  | _ => true

end ProductQuoteService

/-! ## Where a quote comes from -/

/-- **The quote has the digested facts of an input** it was built from. -/
def FromInput (host : QuoteHost) (inputs : BuildProductQuoteInput → Prop)
    (quote : ProductQuoteSnapshot) : Prop :=
  ∃ input, inputs input ∧ quote.revision = revisionFor host input ∧
    quote.billingMode = input.billingMode ∧ quote.confirmedAmount = some (quotedAmount input) ∧
    quote.formula.unitRate = input.unitRate ∧ quote.creditCost = input.creditCost ∧
    quote.debitUnits = input.debitUnits ∧ quote.packageContract = input.packageContract ∧
    quote.outputCount = input.outputCount

variable {host : QuoteHost} {now : TimeValue} {inputs : BuildProductQuoteInput → Prop}
  {quote : ProductQuoteSnapshot} {input : BuildProductQuoteInput}

theorem fromInput_newQuote (h : inputs input) : FromInput host inputs (newQuote host now input) :=
  ⟨input, h, rfl, rfl, rfl, rfl, rfl, rfl, rfl, rfl⟩

/-- Confirming changes no digested fact. -/
theorem FromInput.confirmed (h : FromInput host inputs quote) (request : ConfirmQuoteInput) :
    FromInput host inputs (ProductQuoteService.confirmed now quote request) := by
  obtain ⟨input, hinput, hrevision, hmode, hamount, hrest⟩ := h
  refine ⟨input, hinput, hrevision, hmode, ?_, hrest⟩
  simp [ProductQuoteService.confirmed, hamount]

/-- The amount is one of the digested facts. -/
theorem quotedAmount_congr {input' : BuildProductQuoteInput}
    (h : revisionFacts input = revisionFacts input') : quotedAmount input = quotedAmount input' := by
  simp only [revisionFacts, RevisionFacts.mk.injEq] at h
  obtain ⟨hmode, -, -, -, -, -, -, hmin, -, -, -, -, -, -, -, -, -, hstep, htarget, hrate⟩ := h
  simp only [quotedAmount, quotedSeconds, hmode, hmin, hstep, htarget, hrate]

/-- **A stored quote of the input's revision is the one asked for** exactly when the other facts
agree, if no other input has that revision. -/
theorem FromInput.askedFor_iff (h : FromInput host inputs quote)
    (hrevision : quote.revision = revisionFor host input)
    (hdigest : ∀ built, inputs built → host.revisionDigest (revisionFacts built) =
      host.revisionDigest (revisionFacts input) → revisionFacts built = revisionFacts input) :
    AskedFor quote input ↔ otherFactsAgree quote input = true := by
  obtain ⟨built, hbuilt, hown, hmode, hamount, hrate, hcredits, hunits, hpackage, hcount⟩ := h
  have hfacts := hdigest built hbuilt (hown.symm.trans hrevision)
  have hsame := quotedAmount_congr hfacts
  simp only [revisionFacts, RevisionFacts.mk.injEq] at hfacts
  obtain ⟨fmode, -, -, fcredits, funits, -, -, -, fcount, -, -, fpackage, -, -, -, -, -, -, -, frate⟩ :=
    hfacts
  rw [otherFactsAgree, decide_eq_true_eq]
  constructor
  · intro hasked
    exact ⟨hasked.workspace, hasked.currency, hasked.authorized, hasked.candidates⟩
  · rintro ⟨hworkspace, hcurrency, hauthorized, hcandidates⟩
    exact ⟨hworkspace, hcurrency, hmode.trans fmode, hauthorized, by rw [hamount, hsame],
      hrate.trans frate, hcredits.trans fcredits, hunits.trans funits, hcandidates,
      hpackage.trans fpackage, hcount.trans fcount⟩

/-! ## Ceilings -/

/-- A quote whose ceiling and amount are those of another. -/
theorem Authorised.congr (h : Authorised quote) {quote' : ProductQuoteSnapshot}
    (hauthorized : quote'.authorizedCeiling = quote.authorizedCeiling)
    (hamount : quote'.confirmedAmount = quote.confirmedAmount) : Authorised quote' := by
  rw [Authorised, hauthorized, hamount]
  exact h

theorem authorised_newQuote (hcheck : checkQuoteInput input = .ok ())
    (hceiling : quotedAmount input ≤ input.authorizedCeiling.getD (quotedAmount input)) :
    Authorised (newQuote host now input) :=
  ⟨_, _, rfl, rfl, quotedAmount_nonneg hcheck, hceiling⟩

/-- A ceiling that is confirmed is the one given, or the one that was there. -/
theorem Authorised.confirmed (h : Authorised quote) {request : ConfirmQuoteInput}
    (hmeets : ∀ authorized, request.authorizedCeiling = some authorized →
      ∀ amount, quote.confirmedAmount = some amount → amount ≤ authorized) :
    Authorised (ProductQuoteService.confirmed now quote request) := by
  obtain ⟨authorized, amount, hauthorized, hamount, hnonneg, hle⟩ := h
  rcases hgiven : request.authorizedCeiling with _ | given
  · refine ⟨authorized, amount, ?_, ?_, hnonneg, hle⟩
    · simp [ProductQuoteService.confirmed, hgiven, hauthorized]
    · simp [ProductQuoteService.confirmed, hamount]
  · refine ⟨given, amount, ?_, ?_, hnonneg, hmeets given hgiven amount hamount⟩
    · simp [ProductQuoteService.confirmed, hgiven]
    · simp [ProductQuoteService.confirmed, hamount]

/-! ## Runs -/

namespace ProductQuoteService

variable {service : ProductQuoteService} {call : TimedCall}

theorem passesTo_fromInput (h : ∀ input, call.2.builds = some input → inputs input) :
    PassesTo (FromInput host inputs) host call.1 service call.2 := by
  obtain ⟨now, call⟩ := call
  cases call with
  | buildQuote input => exact fun _ _ => fromInput_newQuote (h input rfl)
  | confirm input => exact fun _ _ hquote _ _ _ _ => hquote.confirmed input
  | reserve input => exact fun _ _ hquote => hquote
  | replaceReservedQuote input =>
    exact ⟨fun _ _ => fromInput_newQuote (h input.successor rfl), fun _ _ hquote _ _ => hquote,
      fun _ hquote => hquote.confirmed _, fun _ hquote => hquote⟩
  | dispatch input => exact fun _ _ hquote => hquote
  | fallbackDispatch input => exact fun _ _ hquote => hquote
  | settle input => exact fun _ _ hquote _ _ => ⟨fun _ _ _ _ => hquote, fun _ _ _ _ => hquote⟩
  | failAndRefund input =>
    exact fun _ _ hquote _ _ => ⟨fun _ _ _ _ _ _ _ => hquote, fun _ _ => hquote,
      fun _ _ _ _ => hquote⟩

theorem passesTo_authorised (hmeets : confirmMeets service call = true) :
    PassesTo Authorised host call.1 service call.2 := by
  obtain ⟨now, call⟩ := call
  cases call with
  | buildQuote input => exact fun hcheck hceiling => authorised_newQuote hcheck hceiling
  | confirm input =>
    intro quote hget hquote hblank htask hstatus hindex
    simp only [confirmMeets, hget, Option.all_some, decide_eq_true_eq] at hmeets
    have hsets : confirmSets service quote input = true := by
      rw [confirmSets, decide_eq_true_eq]
      exact ⟨hblank, hstatus, (Option.all_eq_true _ _).mpr fun t ht => decide_eq_true (htask t ht),
        (Option.all_eq_true _ _).mpr fun id hid => decide_eq_true (hindex id hid)⟩
    refine hquote.confirmed fun authorized hgiven amount hamount => ?_
    have hcovers := hmeets hsets
    rw [hgiven, Option.all_some, hamount, Option.all_some] at hcovers
    exact of_decide_eq_true hcovers
  | reserve input => exact fun _ _ hquote => hquote.congr rfl rfl
  | replaceReservedQuote input =>
    exact ⟨fun hcheck hceiling => authorised_newQuote hcheck hceiling,
      fun _ _ hquote _ _ => hquote.congr rfl rfl,
      fun _ (hquote : Authorised _) => hquote.confirmed fun _ hgiven => (by cases hgiven),
      fun _ hquote => hquote.congr rfl rfl⟩
  | dispatch input => exact fun _ _ hquote => hquote.congr rfl rfl
  | fallbackDispatch input => exact fun _ _ hquote => hquote.congr rfl rfl
  | settle input =>
    exact fun _ _ hquote _ _ => ⟨fun _ _ _ _ => hquote.congr rfl rfl,
      fun _ _ _ _ => hquote.congr rfl rfl⟩
  | failAndRefund input =>
    exact fun _ _ hquote _ _ => ⟨fun _ _ _ _ _ _ _ => hquote.congr rfl rfl,
      fun _ _ => hquote.congr rfl rfl, fun _ _ _ _ => hquote.congr rfl rfl⟩

/-- What `buildQuote` returns for an id that is stored is the stored quote, of that revision. -/
theorem buildQuote_returns {existing built : ProductQuoteSnapshot}
    (hget : service.quotes.get? input.quoteId = some existing)
    (hok : result (buildQuote host now input) service = .ok built) :
    built = existing ∧ existing.revision = revisionFor host input := by
  have hends : Wp (buildQuote host now input) service
      (fun quote _ => quote = existing ∧ existing.revision = revisionFor host input)
      fun _ _ => True := by
    refine wp_buildQuote (fun _ => trivial) (fun other hother _ hrevision => ?_) fun hnone => ?_
    · obtain rfl := Option.some.inj (hget.symm.trans hother)
      exact ⟨rfl, hrevision⟩
    · rw [hget] at hnone
      exact nomatch hnone
  exact (wp_iff_result.mp hends).1 built hok

/-- **In every run whose confirmations meet the condition** no ceiling falls below its amount, and a
quote that is built again is the one asked for exactly when the undigested facts agree — as long as
no other input of the run has the second input's revision. -/
theorem askedFor_run (host : QuoteHost) (calls : List TimedCall) (input : BuildProductQuoteInput)
    (hdigest : ∀ call ∈ calls, ∀ built, call.2.builds = some built →
      host.revisionDigest (revisionFacts built) = host.revisionDigest (revisionFacts input) →
        revisionFacts built = revisionFacts input)
    (hmeets : Admits (step host) (fun service call => confirmMeets service call = true) calls
      empty) :
    (∀ id quote, (runAll (step host) calls empty).quotes.get? id = some quote →
      Authorised quote) ∧
    ∀ now existing quote,
      (runAll (step host) calls empty).quotes.get? input.quoteId = some existing →
      result (buildQuote host now input) (runAll (step host) calls empty) = .ok quote →
        (AskedFor quote input ↔ otherFactsAgree existing input = true) := by
  have hauthorised : EachQuote Authorised (runAll (step host) calls empty) :=
    runAll_induct (EachQuote Authorised)
      (fun _ _ h hok => keeps_perform h (passesTo_authorised hok)) calls eachQuote_empty hmeets
  have hcalls : Admits (step host) (fun _ call => call ∈ calls) calls empty :=
    admits_of_forall fun _ hcall _ => hcall
  have hfrom : EachQuote (FromInput host fun built => ∃ call ∈ calls, call.2.builds = some built)
      (runAll (step host) calls empty) :=
    runAll_induct _ (fun _ call h hcall => keeps_perform h (passesTo_fromInput
      fun built hbuilt => ⟨call, hcall, hbuilt⟩)) calls eachQuote_empty hcalls
  refine ⟨fun id quote hget => (hauthorised id quote hget).2,
    fun now existing quote hget hok => ?_⟩
  obtain ⟨rfl, hrevision⟩ := buildQuote_returns hget hok
  exact (hfrom _ _ hget).2.askedFor_iff hrevision fun built ⟨call, hcall, hbuilt⟩ =>
    hdigest call hcall built hbuilt

/-- A request priced at 1 in a currency. -/
def pricedIn (currency : String) : BuildProductQuoteInput where
  quoteId := "quote"
  catalogModelId := "model"
  quotePolicyRevision := "quote.policy@1"
  billingMode := .per_request
  unitRate := 1
  currency := some currency
  workspaceId := some "workspace"

/-- The request, quoted. -/
def quotedIn (currency : String) : List TimedCall :=
  [(.epoch, .buildQuote (pricedIn currency))]

/-- Built again from the same input, the quote is the one asked for. -/
theorem askedFor_same : ∃ quote,
    result (buildQuote isoQuoteHost ⟨0, by decide⟩ (pricedIn "CNY"))
      (runAll (step isoQuoteHost) (quotedIn "CNY") empty) = .ok quote ∧
      AskedFor quote (pricedIn "CNY") := by
  have hstored : ((runAll (step isoQuoteHost) (quotedIn "CNY") empty).quotes.get?
      (pricedIn "CNY").quoteId).any (otherFactsAgree · (pricedIn "CNY")) = true := by
    decide +kernel
  obtain ⟨existing, hget, hagree⟩ := (Option.any_eq_true _ _).mp hstored
  have hbuilt : (result (buildQuote isoQuoteHost ⟨0, by decide⟩ (pricedIn "CNY"))
      (runAll (step isoQuoteHost) (quotedIn "CNY") empty)).toBool = true := by decide +kernel
  rcases hok : result (buildQuote isoQuoteHost ⟨0, by decide⟩ (pricedIn "CNY"))
      (runAll (step isoQuoteHost) (quotedIn "CNY") empty) with e | quote
  · rw [hok] at hbuilt
    exact nomatch hbuilt
  · refine ⟨quote, rfl, ((askedFor_run isoQuoteHost (quotedIn "CNY") (pricedIn "CNY") ?_
      (by decide +kernel)).2 _ existing quote hget hok).mpr hagree⟩
    intro call hcall built hbuilds _
    obtain rfl := List.mem_singleton.mp hcall
    rw [Option.some.inj hbuilds]

/-- **Asked for in another currency, the stored quote is returned.** -/
theorem not_askedFor_of_currency : ¬ ∀ (calls : List TimedCall) (input : BuildProductQuoteInput)
    (now : TimeValue) (quote : ProductQuoteSnapshot),
      result (buildQuote isoQuoteHost now input) (runAll (step isoQuoteHost) calls empty) =
        .ok quote → AskedFor quote input := by
  intro h
  have hbuilt : (result (buildQuote isoQuoteHost ⟨0, by decide⟩ (pricedIn "USD"))
      (runAll (step isoQuoteHost) (quotedIn "CNY") empty)).toOption.any
        (·.formula.currency = some "CNY") = true := by decide +kernel
  rcases hok : result (buildQuote isoQuoteHost ⟨0, by decide⟩ (pricedIn "USD"))
      (runAll (step isoQuoteHost) (quotedIn "CNY") empty) with e | quote
  · rw [hok] at hbuilt
    exact nomatch hbuilt
  · rw [hok] at hbuilt
    have hcurrency : quote.formula.currency = some "CNY" := of_decide_eq_true hbuilt
    have hasked := (h (quotedIn "CNY") (pricedIn "USD") ⟨0, by decide⟩ quote hok).currency
    rw [hcurrency] at hasked
    exact absurd hasked (by decide)

end ProductQuoteService

end MeiyeAgent
