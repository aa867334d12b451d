import MeiyeAgent.ProductBilling.QuoteWrites
import Mathlib.Algebra.Order.Field.Basic
import Mathlib.Algebra.Order.Floor.Ring

/-!
# ProductBilling/QuoteMoney — when the money of a terminal quote adds up

A terminal quote is accounted for if what it settled lies between nothing and the ceiling, and the
rest of the ceiling is refunded.  That holds of what a call stores as long as

* the ceiling is a finite number and not negative — `confirm` sets any ceiling;
* a trusted delivery charged at the confirmed amount leaves no ceiling above it — that branch
  refunds nothing;
* credits rounded to an amount stay within the ceiling;
* seconds of a failed quote are not negative;
* the ceiling less the amount is a number of the language — else the refund is rounded.

`moneyAccounted_run` — **in every run of such calls every terminal quote is accounted for**.
-/

namespace MeiyeAgent

open Effect

/-- A quote that is settled or refunded. -/
def Terminal (quote : ProductQuoteSnapshot) : Prop :=
  quote.lifecycleStatus = .settled ∨ quote.lifecycleStatus = .refunded

/-- **The money of the quote adds up** to what was authorized. -/
def MoneyAccounted (quote : ProductQuoteSnapshot) : Prop :=
  ∃ authorized settled refunded, quote.authorizedCeiling = some authorized ∧
    quote.settledAmount = some settled ∧ quote.refundedAmount = some refunded ∧
      0 ≤ settled ∧ settled ≤ authorized ∧ settled + refunded = authorized

/-! ## The condition -/

/-- A ceiling that is a finite number and not negative. -/
def isCeiling (authorized : ℚ) : Bool := 0 ≤ authorized ∧ Doubles.IsDouble authorized

/-- The ceiling less the amount is a number: nothing is lost to rounding. -/
def leavesNumber (authorized amount : ℚ) : Bool := Doubles.IsDouble (authorized - amount)

/-- The product of the ceiling and the settled credits is finite. -/
def creditsFinite (authorized : ℚ) (settledCredits : Option Int) : Bool :=
  settledCredits.all fun settled : Int => authorized * settled ≤ Doubles.largest

/-- The amount of the settled credits, rounded, is within the ceiling and leaves a number. -/
def creditsWithin (authorized : ℚ) (creditCost : Int) (settledCredits : Option Int) : Bool :=
  settledCredits.all fun settled : Int =>
    Doubles.rounded (Doubles.rounded (authorized * settled) / creditCost) < ⌊authorized⌋ + 1 / 2 ∧
      leavesNumber authorized (creditAmount authorized creditCost (some settled))

/-- The price of some seconds at the rate of the quote. -/
def secondsAmount (quote : ProductQuoteSnapshot) (actualSeconds : ℚ) : ℚ :=
  computeProductAmount .per_output_second quote.formula.unitRate
    (some (billableSeconds quote actualSeconds))

/-- What a check computes has the property, if the check passes. -/
def whenOk {α : Type} (x : Except Thrown α) (p : α → Bool) : Bool :=
  match x with
  | .ok a => p a
  | .error _ => true

/-- Settling on trusted seconds leaves no money unexplained. -/
def secondsMeet (quote : ProductQuoteSnapshot) (actualSeconds : ℚ) : Bool :=
  match quote.billingMode with
  | .per_request => ceiling quote ≤ quote.confirmedAmount.getD (ceiling quote)
  | .per_output_second => secondsAmount quote actualSeconds ≤ ceiling quote →
      leavesNumber (ceiling quote) (secondsAmount quote actualSeconds)

/-- Settling this quote on this evidence leaves no money unexplained. -/
def settleMeets (quote : ProductQuoteSnapshot) (input : SettleQuoteInput) : Bool :=
  isCeiling (ceiling quote) &&
    match quote.creditCost, input.trustedUsage with
    | some creditCost, _ => whenOk (creditSettlement quote creditCost input) fun settlement =>
        creditsFinite (ceiling quote) settlement.settledCredits ∧
          creditsWithin (ceiling quote) creditCost settlement.settledCredits
    | none, some (.product_units _) => ceiling quote ≤ quote.confirmedAmount.getD (ceiling quote)
    | none, some (.seconds kind actualSeconds) =>
      isTrustedUsageEvidence kind ∧ actualSeconds ≥ 0 → secondsMeet quote actualSeconds
    | none, none => true

/-- Failing it does. -/
def failMeets (quote : ProductQuoteSnapshot) (input : FailAndRefundInput) : Bool :=
  isCeiling (ceiling quote) &&
    match quote.creditCost, input.trustedUsage with
    | some creditCost, _ =>
      (quote.packageContract.filter fun _ => input.forceCreditRefund ≠ some true).all
        fun contract => whenOk (ProductQuoteService.packageFailure contract) fun settlement =>
          creditsFinite (ceiling quote) settlement.settledCredits ∧
            creditsWithin (ceiling quote) creditCost settlement.settledCredits
    | none, some (.product_units _) => leavesNumber (ceiling quote) (trustedAmount quote)
    | none, some (.seconds kind actualSeconds) =>
      isTrustedUsageEvidence kind ∧ quote.billingMode = .per_output_second →
        0 ≤ quote.formula.unitRate * billableSeconds quote actualSeconds ∧
          leavesNumber (ceiling quote) (min (ceiling quote) (secondsAmount quote actualSeconds))
    | none, none => true

namespace ProductQuoteService

/-- **The condition on a call.** -/
def moneyMeets (service : ProductQuoteService) (call : TimedCall) : Bool :=
  match call.2 with
  | .settle input => (service.quotes.get? input.quoteId).all fun quote =>
      (quote.lifecycleStatus = .reserved ∨ quote.lifecycleStatus = .dispatched) ∧
        service.hasUsage quote → settleMeets quote input
  | .failAndRefund input => (service.quotes.get? input.quoteId).all fun quote =>
      quote.lifecycleStatus ≠ .settled ∧ quote.lifecycleStatus ≠ .refunded ∧
        service.hasUsage quote → failMeets quote input
  | .replaceReservedQuote input => (service.quotes.get? input.previousQuoteId).all fun quote =>
      isReservedQuote quote (service.usage.getByTask input.taskId) input ∧
        input.successor.workspaceId = quote.workspaceId → isCeiling (ceiling quote)
  | _ => true

end ProductQuoteService

/-! ## Amounts -/

/-- A rounded number is at most `a` if it is less than half over the whole part of `a`. -/
theorem mathRound_le {x a : ℚ} : (mathRound x : ℚ) ≤ a ↔ x < ⌊a⌋ + 1 / 2 := by
  rw [← Int.le_floor, mathRound, ← Int.lt_add_one_iff, Int.floor_lt]
  push_cast
  constructor <;> intro h <;> linarith

variable {authorized : ℚ}

theorem isCeiling_eq_true :
    isCeiling authorized = true ↔ 0 ≤ authorized ∧ Doubles.IsDouble authorized :=
  decide_eq_true_iff

/-- **A refund makes up for an amount within the ceiling** exactly if what it leaves is a
number. -/
theorem add_refund_eq_iff {amount : ℚ} (hceiling : Doubles.IsDouble authorized) (hlow : 0 ≤ amount)
    (hhigh : amount ≤ authorized) : amount + Doubles.rounded (authorized - amount) = authorized ↔
      leavesNumber authorized amount = true := by
  have hsize : |authorized - amount| ≤ Doubles.largest := by
    rw [abs_of_nonneg (sub_nonneg.mpr hhigh)]
    exact (sub_le_self _ hlow).trans ((le_abs_self _).trans hceiling.1)
  have hnumber : leavesNumber authorized amount = true ↔
      Doubles.IsDouble (authorized - amount) := decide_eq_true_iff
  rw [hnumber, ← eq_sub_iff_add_eq']
  exact (and_iff_right hsize).symm

theorem applyBillableSecondsRules_nonneg {rawSeconds : ℚ} {minimum step : Option ℚ}
    (h : 0 ≤ rawSeconds) : 0 ≤ applyBillableSecondsRules rawSeconds minimum step := by
  have hfloored : 0 ≤ max rawSeconds (minimum.getD 0) := le_max_of_le_left h
  rw [applyBillableSecondsRules]
  split
  · exact hfloored
  · next hstep =>
    have hpos : 0 ≤ step.getD 1 := by linarith [not_le.mp hstep]
    have hceil : 0 ≤ ⌈Doubles.rounded (max rawSeconds (minimum.getD 0) / step.getD 1)⌉ :=
      Int.ceil_nonneg (Doubles.rounded_nonneg (div_nonneg hfloored hpos))
    exact Doubles.rounded_nonneg (mul_nonneg (by exact_mod_cast hceil) hpos)

variable {creditCost : Int}

/-- **What settled credits stand for** lies within the ceiling, and the refund makes up for it,
exactly under the condition. -/
theorem creditAmount_accounted {settledCredits : Option Int} (hcost : 0 < creditCost)
    (hceiling : isCeiling authorized = true)
    (hsettled : ∀ settled, settledCredits = some settled → 0 ≤ settled) :
    (0 ≤ creditAmount authorized creditCost settledCredits ∧
      creditAmount authorized creditCost settledCredits ≤ authorized ∧
        creditAmount authorized creditCost settledCredits + Doubles.rounded
          (authorized - creditAmount authorized creditCost settledCredits) = authorized) ↔
            creditsWithin authorized creditCost settledCredits = true := by
  obtain ⟨hnonneg, hdouble⟩ := isCeiling_eq_true.mp hceiling
  rcases settledCredits with _ | settled
  · simpa [creditAmount, creditsWithin, Doubles.rounded_zero] using hnonneg
  have hcost' : (0 : ℚ) < creditCost := by exact_mod_cast hcost
  have hsettled' : (0 : ℚ) ≤ settled := by exact_mod_cast hsettled settled rfl
  have hamount : creditAmount authorized creditCost (some settled) =
      mathRound (Doubles.rounded (Doubles.rounded (authorized * settled) / creditCost)) := by
    simp only [creditAmount, Option.filter_some, gt_iff_lt, hcost, decide_true, if_true]
  have hproduct : 0 ≤ Doubles.rounded (authorized * settled) :=
    Doubles.rounded_nonneg (mul_nonneg hnonneg hsettled')
  have hlow : 0 ≤ creditAmount authorized creditCost (some settled) := by
    rw [hamount]
    exact_mod_cast mathRound_nonneg (Doubles.rounded_nonneg (div_nonneg hproduct hcost'.le))
  have hhigh : creditAmount authorized creditCost (some settled) ≤ authorized ↔
      Doubles.rounded (Doubles.rounded (authorized * settled) / creditCost) <
        ⌊authorized⌋ + 1 / 2 := by
    rw [hamount, mathRound_le]
  have hwithin : creditsWithin authorized creditCost (some settled) = true ↔
      Doubles.rounded (Doubles.rounded (authorized * settled) / creditCost) <
        ⌊authorized⌋ + 1 / 2 ∧
          leavesNumber authorized (creditAmount authorized creditCost (some settled)) = true :=
    decide_eq_true_iff
  rw [hwithin, ← hhigh, and_iff_right hlow]
  exact and_congr_right fun hle => add_refund_eq_iff hdouble hlow hle

/-! ## Priced quotes -/

/-- **What holds of every stored quote.** -/
structure Priced (quote : ProductQuoteSnapshot) : Prop where
  authorized : quote.authorizedCeiling = some (ceiling quote)
  confirmed : ∃ amount, quote.confirmedAmount = some amount ∧ 0 ≤ amount
  rate : 0 ≤ quote.formula.unitRate
  credits : ∀ credits, quote.creditCost = some credits → 0 < credits
  package : ∀ contract, quote.packageContract = some contract →
    quote.creditCost = some (contract.allocations.map (·.creditCost)).sum
  accounted : Terminal quote → MoneyAccounted quote

variable {quote : ProductQuoteSnapshot} {now : TimeValue}

variable {input : BuildProductQuoteInput}

theorem checkQuoteInput_eq_ok (h : checkQuoteInput input = .ok ()) :
    0 ≤ input.unitRate ∧ (∀ credits, input.creditCost = some credits → 0 < credits) ∧
      (∀ contract, input.packageContract = some contract →
        input.creditCost = some (contract.allocations.map (·.creditCost)).sum) ∧
      (input.billingMode = .per_output_second → ∃ seconds, input.targetSeconds = some seconds ∧
        0 < seconds) := by
  simp only [checkQuoteInput, guard_eq_ok, bind_eq_ok, last_guard_eq_ok] at h
  obtain ⟨-, -, hrate, -, -, -, -, hcredits, ⟨⟩, hpackage, htarget⟩ := h
  refine ⟨not_lt.mp hrate, fun credits hc => ?_, fun contract hcontract => ?_, fun hmode => ?_⟩
  · rw [hc] at hcredits
    simp only [Option.any_some, decide_eq_true_eq, not_or, not_lt] at hcredits
    omega
  · simp only [assertPackageQuoteTotals, hcontract, guard_eq_ok, bind_eq_ok, last_guard_eq_ok,
      not_or, not_not] at hpackage
    obtain ⟨-, ⟨⟩, -, -, -, -, htotal⟩ := hpackage
    exact htotal
  · have hany := not_not.mp fun hnone => htarget ⟨hmode, hnone⟩
    rcases hseconds : input.targetSeconds with _ | seconds
    · rw [hseconds] at hany
      exact absurd hany (by simp)
    · rw [hseconds] at hany
      exact ⟨seconds, rfl, by simpa using hany⟩

theorem quotedAmount_nonneg (h : checkQuoteInput input = .ok ()) : 0 ≤ quotedAmount input := by
  obtain ⟨hrate, -, -, htarget⟩ := checkQuoteInput_eq_ok h
  rcases hmode : input.billingMode with _ | _
  · simpa only [quotedAmount, computeProductAmount, hmode] using hrate
  · obtain ⟨seconds, hseconds, hpos⟩ := htarget hmode
    simp only [quotedAmount, quotedSeconds, computeProductAmount, hmode, hseconds,
      Option.getD_some]
    exact Doubles.rounded_nonneg (mul_nonneg hrate (applyBillableSecondsRules_nonneg hpos.le))

theorem priced_newQuote {host : QuoteHost} (h : checkQuoteInput input = .ok ()) :
    Priced (newQuote host now input) := by
  obtain ⟨hrate, hcredits, hpackage, -⟩ := checkQuoteInput_eq_ok h
  exact ⟨rfl, ⟨_, rfl, quotedAmount_nonneg h⟩, hrate, hcredits, hpackage,
    fun hterminal => hterminal.elim nofun nofun⟩

/-- A quote that is not terminal is priced as the one it was made from. -/
theorem Priced.reopen (h : Priced quote) {quote' : ProductQuoteSnapshot}
    (hauthorized : quote'.authorizedCeiling = quote.authorizedCeiling)
    (hconfirmed : quote'.confirmedAmount = quote.confirmedAmount)
    (hrate : quote'.formula = quote.formula) (hcredits : quote'.creditCost = quote.creditCost)
    (hpackage : quote'.packageContract = quote.packageContract)
    (haccounted : Terminal quote' → MoneyAccounted quote') : Priced quote' where
  authorized := by
    have hceiling : ceiling quote' = ceiling quote := by
      rw [ceiling, ceiling, hauthorized, hconfirmed]
    rw [hauthorized, hceiling, h.authorized]
  confirmed := hconfirmed ▸ h.confirmed
  rate := hrate ▸ h.rate
  credits := hcredits ▸ h.credits
  package := by
    rw [hcredits, hpackage]
    exact h.package
  accounted := haccounted

/-- A confirmed quote is priced, whatever ceiling is set. -/
theorem Priced.confirmed_quote (h : Priced quote) (input : ConfirmQuoteInput) :
    Priced (ProductQuoteService.confirmed now quote input) := by
  obtain ⟨amount, hamount, hnonneg⟩ := h.confirmed
  refine ⟨rfl, ⟨amount, ?_, hnonneg⟩, h.rate, h.credits, h.package,
    fun hterminal => hterminal.elim nofun nofun⟩
  simp [ProductQuoteService.confirmed, hamount]

/-- The money of a quote that was charged. -/
theorem moneyAccounted_iff {settled refunded : ℚ} (ha : quote.authorizedCeiling = some authorized)
    (hs : quote.settledAmount = some settled) (hr : quote.refundedAmount = some refunded) :
    MoneyAccounted quote ↔
      0 ≤ settled ∧ settled ≤ authorized ∧ settled + refunded = authorized := by
  constructor
  · rintro ⟨a, s, r, ha', hs', hr', haccounted⟩
    obtain rfl := Option.some.inj (ha.symm.trans ha')
    obtain rfl := Option.some.inj (hs.symm.trans hs')
    obtain rfl := Option.some.inj (hr.symm.trans hr')
    exact haccounted
  · intro haccounted
    exact ⟨authorized, settled, refunded, ha, hs, hr, haccounted⟩

/-! ## Charges -/

variable {settlement : CreditSettlement}

/-- A settlement is of a package, of a single reservation, or keeps everything. -/
theorem creditSettlement_cases {input : SettleQuoteInput}
    (h : creditSettlement quote creditCost input = .ok settlement) : settlement = ⟨0, none⟩ ∨
      (∃ contract delivery package, quote.packageContract = some contract ∧
        computePackagePartialCreditSettlement contract.allocations delivery = .ok package ∧
        settlement = ⟨package.refundCredits, some package.settledCredits⟩) ∨
      ∃ policy delivery one, quote.packageContract = none ∧
        computePartialCreditSettlement creditCost policy delivery = .ok one ∧
        settlement = ⟨one.refundCredits, some one.settledCredits⟩ := by
  simp only [creditSettlement, bind_eq_ok] at h
  obtain ⟨⟨delivered, evidence⟩, hevidence, h⟩ := h
  simp only [guard_eq_ok, pure_eq_ok] at h
  obtain ⟨-, rfl⟩ := h
  simp only [creditEvidence, guard_eq_ok] at hevidence
  obtain ⟨hsingle, -, hevidence⟩ := hevidence
  split at hevidence
  · next contract delivery hcontract _ =>
    simp only [bind_eq_ok, pure_eq_ok, Prod.mk.injEq] at hevidence
    obtain ⟨package, hpackage, -, rfl⟩ := hevidence
    exact .inr (.inl ⟨contract, delivery, package, hcontract, hpackage, rfl⟩)
  · next _ _ hpartial _ =>
    split at hevidence
    · simp only [pure_eq_ok, Prod.mk.injEq] at hevidence
      obtain ⟨-, rfl⟩ := hevidence
      exact .inl rfl
    · simp only [bind_eq_ok, pure_eq_ok, Prod.mk.injEq] at hevidence
      obtain ⟨one, hone, -, rfl⟩ := hevidence
      refine .inr (.inr ⟨_, _, one, ?_, hone, rfl⟩)
      rcases hcontract : quote.packageContract with _ | contract
      · rfl
      · rw [hcontract, hpartial] at hsingle
        exact absurd ⟨rfl, rfl⟩ hsingle
  · simp only [pure_eq_ok, Prod.mk.injEq] at hevidence
    obtain ⟨-, rfl⟩ := hevidence
    exact .inl rfl

theorem creditSettlement_nonneg {input : SettleQuoteInput}
    (h : creditSettlement quote creditCost input = .ok settlement) :
    ∀ settled, settlement.settledCredits = some settled → 0 ≤ settled := by
  rcases creditSettlement_cases h with rfl | ⟨contract, delivery, package, -, hpackage, rfl⟩ |
    ⟨policy, delivery, one, -, hone, rfl⟩
  · exact nofun
  · rintro _ ⟨⟩
    exact computePackagePartialCreditSettlement_nonneg hpackage
  · rintro _ ⟨⟩
    exact (computePartialCreditSettlement_eq_ok hone).2.settled_nonneg

theorem packageFailure_nonneg {contract : ProductQuotePackageContract}
    (h : ProductQuoteService.packageFailure contract = .ok settlement) :
    ∀ settled, settlement.settledCredits = some settled → 0 ≤ settled := by
  simp only [ProductQuoteService.packageFailure, bind_eq_ok, pure_eq_ok] at h
  obtain ⟨package, hpackage, rfl⟩ := h
  rintro _ ⟨⟩
  exact computePackagePartialCreditSettlement_nonneg hpackage

/-- **A charge of credits is accounted for** exactly if it is within the ceiling. -/
theorem moneyAccounted_creditQuote (h : Priced quote) (hcost : quote.creditCost = some creditCost)
    (hsettled : ∀ settled, settlement.settledCredits = some settled → 0 ≤ settled)
    (hceiling : isCeiling (ceiling quote) = true) :
    MoneyAccounted (ProductQuoteService.creditQuote now quote creditCost settlement) ↔
      creditsWithin (ceiling quote) creditCost settlement.settledCredits = true := by
  have hauthorized : (ProductQuoteService.creditQuote now quote creditCost settlement
    ).authorizedCeiling = some (ceiling quote) := h.authorized
  rw [moneyAccounted_iff hauthorized rfl rfl]
  exact creditAmount_accounted (h.credits creditCost hcost) hceiling hsettled

/-- What a trusted delivery is charged lies within the ceiling. -/
theorem trustedAmount_bounds (h : Priced quote) (hceiling : 0 ≤ ceiling quote) :
    0 ≤ trustedAmount quote ∧ trustedAmount quote ≤ ceiling quote := by
  obtain ⟨amount, hamount, hnonneg⟩ := h.confirmed
  rw [trustedAmount, hamount, Option.getD_some]
  exact ⟨le_min hceiling hnonneg, min_le_left _ _⟩

theorem trustedAmount_of_le (hle : ceiling quote ≤ quote.confirmedAmount.getD (ceiling quote)) :
    trustedAmount quote = ceiling quote := min_eq_left hle

/-- Settling by the seconds, what the amount leaves being a number. -/
theorem secondsSettlement_accounted (h : Priced quote) {reservedQuantity : Int}
    {reservedUnits : List ProductUsageUnit} {seconds : ℚ} {settlement : UnitSettlement}
    (hceiling : 0 ≤ ceiling quote) (hdouble : Doubles.IsDouble (ceiling quote))
    (hseconds : 0 ≤ seconds)
    (hmeets : secondsAmount quote seconds ≤ ceiling quote →
      leavesNumber (ceiling quote) (secondsAmount quote seconds) = true)
    (hok : secondsSettlement quote reservedQuantity reservedUnits seconds = .ok settlement) :
    0 ≤ settlement.amount ∧ settlement.amount ≤ ceiling quote ∧
      settlement.amount + settlement.refundedAmount = ceiling quote := by
  have hamount : 0 ≤ secondsAmount quote seconds :=
    Doubles.rounded_nonneg (mul_nonneg h.rate (applyBillableSecondsRules_nonneg hseconds))
  simp only [secondsSettlement, bind_eq_ok] at hok
  obtain ⟨video, -, hok⟩ := hok
  split at hok
  · next hle =>
    obtain rfl := pure_eq_ok.mp hok
    exact ⟨hamount, hle, (add_refund_eq_iff hdouble hamount hle).mpr (hmeets hle)⟩
  · obtain rfl := pure_eq_ok.mp hok
    exact ⟨hceiling, le_refl _, add_zero _⟩

/-- **Settling by the units is accounted for** under the condition. -/
theorem unitSettlement_bounds (h : Priced quote) {input : SettleQuoteInput}
    {usage : ProductUsageRecord} {settlement : UnitSettlement} (hcost : quote.creditCost = none)
    (hmeets : settleMeets quote input = true)
    (hok : unitSettlement quote usage input.trustedUsage = .ok settlement) :
    0 ≤ settlement.amount ∧ settlement.amount ≤ ceiling quote ∧
      settlement.amount + settlement.refundedAmount = ceiling quote := by
  simp only [settleMeets, hcost, Bool.and_eq_true, isCeiling_eq_true] at hmeets
  obtain ⟨⟨hceiling, hdouble⟩, hmeets⟩ := hmeets
  simp only [unitSettlement, bind_eq_ok] at hok
  obtain ⟨units, -, hok⟩ := hok
  split at hok
  · next given hgiven =>
    simp only [bind_eq_ok, pure_eq_ok] at hok
    obtain ⟨⟨⟩, -, reconciled, -, rfl⟩ := hok
    simp only [hgiven, decide_eq_true_eq] at hmeets
    simp only [trustedAmount_of_le hmeets]
    exact ⟨hceiling, le_refl _, add_zero _⟩
  · next kind seconds hgiven =>
    split at hok
    · obtain rfl := pure_eq_ok.mp hok
      exact ⟨hceiling, le_refl _, add_zero _⟩
    · next htrusted =>
      have hseconds := not_not.mp htrusted
      simp only [hgiven, decide_eq_true_eq] at hmeets
      have hmode := hmeets hseconds
      split at hok
      · next hrequest =>
        obtain rfl := pure_eq_ok.mp hok
        simp only [secondsMeet, hrequest, decide_eq_true_eq] at hmode
        simp only [trustedAmount_of_le hmode]
        exact ⟨hceiling, le_refl _, add_zero _⟩
      · next hrate =>
        simp only [secondsMeet, hrate, decide_eq_true_eq] at hmode
        exact secondsSettlement_accounted h hceiling hdouble hseconds.2 hmode hok
  · obtain rfl := pure_eq_ok.mp hok
    exact ⟨hceiling, le_refl _, add_zero _⟩

/-- **Refunding by the units is accounted for** under the condition. -/
theorem unitRefund_bounds (h : Priced quote) {input : FailAndRefundInput}
    {usage : ProductUsageRecord} {settlement : UnitSettlement} (hcost : quote.creditCost = none)
    (hmeets : failMeets quote input = true)
    (hok : unitRefund quote usage input.trustedUsage = .ok settlement) :
    0 ≤ settlement.amount ∧ settlement.amount ≤ ceiling quote ∧
      leavesNumber (ceiling quote) settlement.amount = true := by
  simp only [failMeets, hcost, Bool.and_eq_true, isCeiling_eq_true] at hmeets
  obtain ⟨⟨hceiling, hdouble⟩, hmeets⟩ := hmeets
  have hnothing : leavesNumber (ceiling quote) 0 = true := by
    rw [leavesNumber, sub_zero]
    exact decide_eq_true hdouble
  simp only [unitRefund] at hok
  split at hok
  · next units hgiven =>
    simp only [bind_eq_ok, pure_eq_ok] at hok
    obtain ⟨⟨⟩, -, reserved, -, reconciled, -, rfl⟩ := hok
    obtain ⟨hlow, hhigh⟩ := trustedAmount_bounds h hceiling
    simp only [hgiven] at hmeets
    exact ⟨hlow, hhigh, hmeets⟩
  · next kind seconds hgiven =>
    simp only [hgiven, decide_eq_true_eq] at hmeets
    split at hok
    · next htrusted =>
      simp only [secondsRefund, bind_eq_ok, pure_eq_ok] at hok
      obtain ⟨units, -, video, -, rfl⟩ := hok
      obtain ⟨hprice, hleaves⟩ := hmeets htrusted
      exact ⟨le_min hceiling (Doubles.rounded_nonneg hprice), min_le_left _ _, hleaves⟩
    · obtain rfl := pure_eq_ok.mp hok
      exact ⟨le_refl _, hceiling, hnothing⟩
  · obtain rfl := pure_eq_ok.mp hok
    exact ⟨le_refl _, hceiling, hnothing⟩

/-! ## Runs -/

namespace ProductQuoteService

variable {host : QuoteHost} {service : ProductQuoteService} {call : TimedCall}

/-- **Every quote a call stores is priced**, if the call meets the condition. -/
theorem passesTo_priced (hmeets : moneyMeets service call = true) :
    PassesTo Priced host call.1 service call.2 := by
  obtain ⟨now, call⟩ := call
  cases call with
  | buildQuote input => exact fun hcheck _ => priced_newQuote hcheck
  | confirm input => exact fun quote _ hquote _ _ _ _ => hquote.confirmed_quote input
  | reserve input =>
    exact fun quote _ hquote => hquote.reopen rfl rfl rfl rfl rfl (by rintro (h | h) <;> cases h)
  | replaceReservedQuote input =>
    refine ⟨fun hcheck _ => priced_newQuote hcheck, fun quote hget hquote hexact hworkspace => ?_,
      fun quote hquote => hquote.confirmed_quote _,
      fun quote hquote => hquote.reopen rfl rfl rfl rfl rfl (by rintro (h | h) <;> cases h)⟩
    simp only [moneyMeets, hget, Option.all_some, decide_eq_true_eq] at hmeets
    have hceiling := (isCeiling_eq_true.mp (hmeets ⟨hexact, hworkspace⟩)).1
    have hrefunded : (released now quote).refundedAmount = some (ceiling quote) := by
      simp [released, hquote.authorized]
    have hauthorized : (released now quote).authorizedCeiling = some (ceiling quote) :=
      hquote.authorized
    refine hquote.reopen rfl rfl rfl rfl rfl fun _ => ?_
    exact (moneyAccounted_iff hauthorized rfl hrefunded).mpr ⟨le_refl _, hceiling, zero_add _⟩
  | dispatch input =>
    exact fun quote _ hquote => hquote.reopen rfl rfl rfl rfl rfl (by rintro (h | h) <;> cases h)
  | fallbackDispatch input =>
    exact fun quote _ hquote => hquote.reopen rfl rfl rfl rfl rfl (by rintro (h | h) <;> cases h)
  | settle input =>
    intro quote hget hquote hopen husage
    simp only [moneyMeets, hget, Option.all_some, decide_eq_true_eq] at hmeets
    have hsettle := hmeets ⟨hopen, husage⟩
    refine ⟨fun creditCost settlement hcost hok => ?_, fun usage settlement hcost hok => ?_⟩
    · simp only [settleMeets, hcost, Bool.and_eq_true, decide_eq_true_eq, hok, whenOk] at hsettle
      refine hquote.reopen rfl rfl rfl rfl rfl fun _ => ?_
      exact (moneyAccounted_creditQuote hquote hcost (creditSettlement_nonneg hok)
        hsettle.1).mpr hsettle.2.2
    · refine hquote.reopen rfl rfl rfl rfl rfl fun _ => ?_
      have hauthorized : (unitQuote now quote settlement).authorizedCeiling =
          some (ceiling quote) := hquote.authorized
      exact (moneyAccounted_iff hauthorized rfl rfl).mpr
        (unitSettlement_bounds hquote hcost hsettle hok)
  | failAndRefund input =>
    intro quote hget hquote hopen husage
    simp only [moneyMeets, hget, Option.all_some, decide_eq_true_eq] at hmeets
    have hfail := hmeets ⟨hopen.1, hopen.2, husage⟩
    have hisCeiling : isCeiling (ceiling quote) = true := by
      simp only [failMeets, Bool.and_eq_true] at hfail
      exact hfail.1
    obtain ⟨hceiling, hdouble⟩ := isCeiling_eq_true.mp hisCeiling
    refine ⟨fun creditCost contract settlement hcost hcontract hforced hok => ?_,
      fun refundCredits _ => ?_, fun usage settlement hcost hok => ?_⟩
    · simp only [failMeets, hcost, hcontract, Bool.and_eq_true] at hfail
      have hwithin := hfail.2
      simp only [Option.filter_some, ne_eq, hforced, not_false_eq_true, decide_true, if_true,
        Option.all_some, hok, whenOk, decide_eq_true_eq] at hwithin
      refine hquote.reopen rfl rfl rfl rfl rfl fun _ => ?_
      exact (moneyAccounted_creditQuote hquote hcost (packageFailure_nonneg hok) hisCeiling).mpr
        hwithin.2
    · refine hquote.reopen rfl rfl rfl rfl rfl fun _ => ?_
      have hauthorized : (failedQuote now quote refundCredits).authorizedCeiling =
          some (ceiling quote) := hquote.authorized
      refine (moneyAccounted_iff hauthorized rfl rfl).mpr ?_
      cases refundCredits with
      | true => exact ⟨le_refl _, hceiling, zero_add _⟩
      | false => exact ⟨hceiling, le_refl _, add_zero _⟩
    · refine hquote.reopen rfl rfl rfl rfl rfl fun _ => ?_
      have hauthorized : (refundedQuote now quote settlement).authorizedCeiling =
          some (ceiling quote) := hquote.authorized
      obtain ⟨hlow, hhigh, hleaves⟩ := unitRefund_bounds hquote hcost hfail hok
      exact (moneyAccounted_iff hauthorized rfl rfl).mpr
        ⟨hlow, hhigh, (add_refund_eq_iff hdouble hlow hhigh).mpr hleaves⟩

/-- **In every run whose calls meet the condition every terminal quote is accounted for.** -/
theorem moneyAccounted_run (host : QuoteHost) (calls : List TimedCall)
    (hmeets : Admits (step host) (fun service call => moneyMeets service call = true) calls empty)
    (id : String) (quote : ProductQuoteSnapshot)
    (hget : (runAll (step host) calls empty).quotes.get? id = some quote)
    (hterminal : Terminal quote) : MoneyAccounted quote := by
  have hrun : EachQuote Priced (runAll (step host) calls empty) :=
    runAll_induct (EachQuote Priced)
      (fun _ _ h hok => keeps_perform h (passesTo_priced hok)) calls eachQuote_empty hmeets
  exact (hrun id quote hget).2.accounted hterminal

/-- A request of one copy at the price 1, confirmed up to `authorizedCeiling` and delivered. -/
def deliveredRequest (authorizedCeiling : Option ℚ) : List TimedCall :=
  let start := TimeValue.epoch
  [(start, .buildQuote
      { quoteId := "quote"
        catalogModelId := "model"
        quotePolicyRevision := "quote.policy@1"
        billingMode := .per_request
        unitRate := 1
        workspaceId := some "workspace" }),
    (start, .confirm { quoteId := "quote", taskId := "task", authorizedCeiling }),
    (start, .reserve { quoteId := "quote", units := [⟨.copy, 1⟩] }),
    (start, .settle { quoteId := "quote", trustedUsage := some (.product_units [⟨.copy, 1⟩]) })]

/-- At the ceiling it was quoted at, the delivered request is accounted for. -/
theorem moneyAccounted_delivered : ∃ quote,
    (runAll (step isoQuoteHost) (deliveredRequest none) empty).quotes.get? "quote" = some quote ∧
      Terminal quote ∧ MoneyAccounted quote := by
  have hsettled : ((runAll (step isoQuoteHost) (deliveredRequest none) empty).quotes.get?
      "quote").any (·.lifecycleStatus = .settled) = true := by decide +kernel
  obtain ⟨quote, hget, hstatus⟩ := (Option.any_eq_true _ _).mp hsettled
  have hterminal : Terminal quote := .inl (of_decide_eq_true hstatus)
  exact ⟨quote, hget, hterminal,
    moneyAccounted_run isoQuoteHost (deliveredRequest none) (by decide +kernel) "quote" quote hget
      hterminal⟩

/-- **With a ceiling above the price, the rest of the ceiling is not refunded.** -/
theorem not_moneyAccounted_of_ceiling : ¬ ∀ (calls : List TimedCall) (id : String)
    (quote : ProductQuoteSnapshot),
      (runAll (step isoQuoteHost) calls empty).quotes.get? id = some quote → Terminal quote →
        MoneyAccounted quote := by
  intro h
  have hsettled : ((runAll (step isoQuoteHost) (deliveredRequest (some 3)) empty).quotes.get?
      "quote").any (fun quote => quote.lifecycleStatus = .settled ∧
        quote.authorizedCeiling = some 3 ∧ quote.settledAmount = some 1 ∧
          quote.refundedAmount = some 0) = true := by decide +kernel
  obtain ⟨quote, hget, hquote⟩ := (Option.any_eq_true _ _).mp hsettled
  obtain ⟨hstatus, hauthorized, hamount, hrefunded⟩ := of_decide_eq_true hquote
  have haccounted := h (deliveredRequest (some 3)) "quote" quote hget (.inl hstatus)
  rw [moneyAccounted_iff hauthorized hamount hrefunded] at haccounted
  exact absurd haccounted.2.2 (by norm_num)

end ProductQuoteService

end MeiyeAgent
