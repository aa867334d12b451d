import MeiyeAgent.ProductBilling.UsageLedger
import Mathlib.Tactic.Positivity
import Mathlib.Tactic.Ring

/-!
# ProductBilling/UsageSound — what the ledger's records keep

* `Sound` — the units of a record are normal and carry their totals; once it is settled, everything
  reserved is settled or refunded.
* `sound_settleReserved`, `sound_refundTo` — the two ways a record changes keep it.
* `step_sound` — **the step**: every call keeps every stored record sound, under its own task.
-/

namespace MeiyeAgent

open Effect

/-! ## Sound records -/

/-- **Everything reserved is settled or refunded**, for each resource and for the credits. -/
structure Accounted (record : ProductUsageRecord) : Prop where
  units : ∀ resource, amount (record.settledUnits.getD []) resource +
    amount (record.refundedUnits.getD []) resource = amount (record.reservedUnits.getD []) resource
  credits : record.settledCredits.getD 0 + record.refundedCredits.getD 0 =
    record.reservedCredits.getD 0

/-- The units a record keeps under one heading, with their total. -/
def Kept (units : Option (List ProductUsageUnit)) (quantity : Int) : Prop :=
  ∃ kept, units = some kept ∧ Normal kept ∧ quantity = totalUnits kept

/-- **What holds of every stored record.** -/
structure Sound (record : ProductUsageRecord) : Prop where
  reserved : Kept record.reservedUnits record.reservedQuantity
  settled : Kept record.settledUnits record.settledQuantity
  refunded : Kept record.refundedUnits record.refundedQuantity
  positive : ∀ credits, record.reservedCredits = some credits → 0 < credits
  fresh : record.status = .reserved → record.settledUnits = some [] ∧
    record.refundedUnits = some [] ∧ record.settledCredits = none ∧ record.refundedCredits = none
  accounted : record.status ≠ .reserved → Accounted record
  known : record.status ≠ .reserved →
    record.settledCredits.isSome = record.reservedCredits.isSome ∧
      record.refundedCredits.isSome = record.reservedCredits.isSome
  retained : ∀ credits, record.settledCredits = some credits → 0 ≤ credits
  full : record.status = .committed → record.settledQuantity = record.reservedQuantity

variable {existing next record : ProductUsageRecord}

theorem Sound.reservedUnits_eq_ok (h : Sound record) :
    reservedProductUsageUnits record = .ok (record.reservedUnits.getD []) ∧
      Normal (record.reservedUnits.getD []) := by
  obtain ⟨units, hunits, hnormal, -⟩ := h.reserved
  rw [reservedProductUsageUnits, hunits]
  exact ⟨normalizeUnits_of_normal hnormal _, hnormal⟩

theorem Sound.settledUnits_eq_ok (h : Sound record) :
    settledProductUsageUnits record = .ok (record.settledUnits.getD []) ∧
      Normal (record.settledUnits.getD []) := by
  obtain ⟨units, hunits, hnormal, -⟩ := h.settled
  rw [settledProductUsageUnits, hunits]
  exact ⟨normalizeUnits_of_normal hnormal _, hnormal⟩

/-- The settled units of a record are within what it reserved. -/
theorem Sound.settled_le (h : Sound record) (hs : record.status ≠ .reserved)
    (resource : ProductUsageResource) : amount (record.settledUnits.getD []) resource ≤
      amount (record.reservedUnits.getD []) resource := by
  obtain ⟨units, hunits, hnormal, -⟩ := h.refunded
  have hnonneg := amount_nonneg hnormal resource
  have hsum := (h.accounted hs).units resource
  rw [hunits, Option.getD_some] at hsum
  omega

/-- A record that reserved no credits settles and refunds none. -/
theorem Sound.noCredits (h : Sound record) (hnone : record.reservedCredits = none) :
    record.settledCredits = none ∧ record.refundedCredits = none := by
  by_cases hs : record.status = .reserved
  · exact (h.fresh hs).2.2
  · have hknown := h.known hs
    rwa [hnone, Option.isSome_none, Option.isSome_eq_false_iff, Option.isNone_iff_eq_none,
      Option.isSome_eq_false_iff, Option.isNone_iff_eq_none] at hknown

variable {input : SettleProductUsageInput} {credits : Int}

theorem resolvePartialRefundCredits_eq_ok (h : Sound existing)
    (hok : resolvePartialRefundCredits existing input = .ok credits) :
    0 ≤ credits ∧ (∀ reserved, existing.reservedCredits = some reserved → credits ≤ reserved) ∧
      (existing.reservedCredits = none → credits = 0) := by
  rcases hrefund : input.refundCredits with _ | refundCredits
  · simp only [resolvePartialRefundCredits, hrefund, pure_eq_ok] at hok
    subst hok
    exact ⟨le_refl _, fun reserved hreserved => (h.positive reserved hreserved).le, fun _ => rfl⟩
  · simp only [resolvePartialRefundCredits, hrefund, guard_eq_ok, not_or, not_lt] at hok
    obtain ⟨⟨-, hnonneg⟩, hok⟩ := hok
    rcases hreserved : existing.reservedCredits with _ | reserved
    · simp only [hreserved] at hok
      split at hok
      · obtain rfl := pure_eq_ok.mp hok
        exact ⟨le_refl _, by simp, fun _ => rfl⟩
      · exact absurd hok (by simp)
    · simp only [hreserved] at hok
      split at hok
      · exact absurd hok (by simp)
      · next hle =>
        obtain rfl := pure_eq_ok.mp hok
        refine ⟨hnonneg, fun r hr => ?_, fun h => by cases h⟩
        obtain rfl := Option.some.inj hr
        exact not_lt.mp hle

theorem settledStatus_ne_reserved (reservedCredits : Option Int) (p r s : Int) :
    settledStatus reservedCredits p r s ≠ .reserved := by
  rw [settledStatus]
  split
  · split <;> exact fun h => nomatch h
  · split
    · exact fun h => nomatch h
    · split <;> exact fun h => nomatch h

theorem eq_zero_of_settledStatus {reservedCredits : Option Int} {p r s : Int}
    (h : settledStatus reservedCredits p r s = .committed) : r = 0 := by
  rw [settledStatus] at h
  split at h
  · split at h <;> exact nomatch h
  · split at h
    · assumption
    · split at h <;> exact nomatch h

/-- Nothing is left only of what is the same. -/
theorem eq_of_totalUnits_subtractUnits {minuend subtrahend : List ProductUsageUnit}
    (h : Normal minuend) (hs : Normal subtrahend)
    (hwithin : ∀ resource, amount subtrahend resource ≤ amount minuend resource)
    (hzero : totalUnits (subtractUnits minuend subtrahend) = 0) : subtrahend = minuend := by
  have hnil := eq_nil_of_totalUnits (normal_subtractUnits h hs) hzero
  refine eq_of_amount hs h fun resource => ?_
  have hsub := amount_subtractUnits h hs hwithin resource
  rw [hnil] at hsub
  have : amount [] resource = 0 := rfl
  omega

/-- **A first settlement is sound**: it is settled, and accounted for. -/
theorem sound_settleReserved {units : List ProductUsageUnit} (h : Sound existing)
    (hs : existing.status = .reserved) (hunits : Normal units)
    (hcredits : resolvePartialRefundCredits existing input = .ok credits)
    (hnext : settleReserved existing input units credits = .ok next) :
    Sound next ∧ next.status ≠ .reserved := by
  obtain ⟨hnonneg, hle, hnone⟩ := resolvePartialRefundCredits_eq_ok h hcredits
  obtain ⟨hreserved, hnormal⟩ := h.reservedUnits_eq_ok
  obtain ⟨-, -, hsettledNone, hrefundedNone⟩ := h.fresh hs
  simp only [settleReserved, hreserved, bind_eq_ok, Except.ok.injEq, exists_eq_left', guard_eq_ok,
    pure_eq_ok, assertUnitsWithin, last_guard_eq_ok, not_not] at hnext
  obtain ⟨⟨⟩, hwithin, -, rfl⟩ := hnext
  rw [unitsWithin_iff hunits hnormal] at hwithin
  have hstatus := settledStatus_ne_reserved existing.reservedCredits credits
    (totalUnits (subtractUnits (existing.reservedUnits.getD []) units)) (totalUnits units)
  refine ⟨⟨h.reserved, ⟨units, rfl, hunits, rfl⟩,
    ⟨_, rfl, normal_subtractUnits hnormal hunits, rfl⟩, h.positive, fun hs => absurd hs hstatus,
    fun _ => ⟨fun resource => ?_, ?_⟩, fun _ => ?_, ?_, ?_⟩, hstatus⟩
  · simp only [Option.getD_some, amount_subtractUnits hnormal hunits hwithin]
    omega
  · rcases hc : existing.reservedCredits with _ | reserved
    · simp [hsettledNone, hrefundedNone]
    · simp
  · rcases hc : existing.reservedCredits with _ | reserved
    · simp [hsettledNone, hrefundedNone]
    · simp
  · intro kept hkept
    rcases hc : existing.reservedCredits with _ | reserved
    · simp [hc, hsettledNone] at hkept
    · simp only [hc, Option.some.injEq] at hkept
      have := hle reserved hc
      omega
  · intro hcommitted
    obtain ⟨kept, hkept, -, htotal⟩ := h.reserved
    have hsame := eq_of_totalUnits_subtractUnits hnormal hunits hwithin
      (eq_zero_of_settledStatus hcommitted)
    rw [hkept, Option.getD_some] at hsame
    simp only [hsame, htotal]

/-! ## Refunds -/

theorem remainingCredits_nonneg {remaining quantity : Int} (hc : 0 ≤ credits) (hr : 0 ≤ remaining)
    (hq : 0 ≤ quantity) : 0 ≤ remainingCredits credits remaining quantity := by
  rw [remainingCredits]
  split
  · split <;> omega
  · exact numberShare_nonneg hc hr hq

/-- **A refund to what is within the reservation is sound**, and accounted for. -/
theorem sound_refundTo {input : RefundProductUsageInput} {remaining : List ProductUsageUnit}
    (h : Sound existing) (hremaining : Normal remaining)
    (hwithin : unitsWithin remaining (existing.reservedUnits.getD []) = true) :
    Sound (refundTo existing input (existing.reservedUnits.getD []) remaining) ∧
      (refundTo existing input (existing.reservedUnits.getD []) remaining).status ≠ .reserved := by
  obtain ⟨-, hnormal⟩ := h.reservedUnits_eq_ok
  rw [unitsWithin_iff hremaining hnormal] at hwithin
  have hstatus : (refundTo existing input (existing.reservedUnits.getD []) remaining).status ≠
      .reserved := by
    simp only [refundTo]
    split
    · exact fun h => nomatch h
    · split <;> exact fun h => nomatch h
  refine ⟨⟨h.reserved, ⟨remaining, rfl, hremaining, rfl⟩,
    ⟨_, rfl, normal_subtractUnits hnormal hremaining, rfl⟩, h.positive,
    fun hs => absurd hs hstatus, fun _ => ⟨fun resource => ?_, ?_⟩, fun _ => ?_, ?_, ?_⟩, hstatus⟩
  · simp only [refundTo, Option.getD_some, amount_subtractUnits hnormal hremaining hwithin]
    omega
  · rcases hc : existing.reservedCredits with _ | reserved
    · obtain ⟨hsettled, hrefunded⟩ := h.noCredits hc
      simp [refundTo, hc, hsettled, hrefunded]
    · simp [refundTo, hc]
  · rcases hc : existing.reservedCredits with _ | reserved
    · obtain ⟨hsettled, hrefunded⟩ := h.noCredits hc
      simp [refundTo, hc, hsettled, hrefunded]
    · simp [refundTo, hc]
  · intro kept hkept
    rcases hc : existing.reservedCredits with _ | reserved
    · simp [refundTo, hc, (h.noCredits hc).1] at hkept
    · simp only [refundTo, hc, Option.some.injEq] at hkept
      obtain ⟨units, hunits, hunitsNormal, htotal⟩ := h.reserved
      exact hkept ▸ remainingCredits_nonneg (h.positive reserved hc).le
        (totalUnits_nonneg hremaining) (htotal ▸ totalUnits_nonneg hunitsNormal)
  · intro hcommitted
    simp only [refundTo] at hcommitted ⊢
    split at hcommitted
    · exact nomatch hcommitted
    · split at hcommitted
      · assumption
      · exact nomatch hcommitted

/-! ## The ledger -/

namespace MemoryProductUsageLedger

variable {ledger : MemoryProductUsageLedger}

/-- **Every stored record is sound**, and stands under its own task. -/
def AllSound (ledger : MemoryProductUsageLedger) : Prop :=
  ∀ taskId record, ledger.byTask.get? taskId = some record →
    record.taskId = taskId ∧ Sound record

theorem allSound_empty : AllSound empty := fun _ _ h => nomatch h

/-- A record put in place of another. -/
theorem allSound_set {taskId : String} (h : AllSound ledger) (htask : record.taskId = taskId)
    (hsound : Sound record) : AllSound ⟨ledger.byTask.set taskId record⟩ := by
  exact OrderedMap.forall_get?_set ⟨htask, hsound⟩ h

theorem sound_reservation {input : ReserveProductUsageInput} {units : List ProductUsageUnit}
    (hunits : Normal units) (hcredits : assertCredits input.credits = .ok ())
    (resource : Option ProductUsageResource) (createdAt : String) :
    Sound (reservation input units resource createdAt) := by
  refine ⟨⟨units, rfl, hunits, rfl⟩, ⟨[], rfl, .nil, rfl⟩, ⟨[], rfl, .nil, rfl⟩, fun credits hc => ?_,
    fun _ => ⟨rfl, rfl, rfl, rfl⟩, fun hs => absurd rfl hs, fun hs => absurd rfl hs,
    fun _ hc => absurd hc (by simp [reservation]), fun hs => nomatch hs⟩
  have hinput : input.credits = some credits := hc
  simp only [assertCredits, hinput, last_guard_eq_ok, not_or, not_lt] at hcredits
  omega

/-- What a refund accepts: what is to remain, within the reservation and what is settled. -/
structure RefundAsked (existing : ProductUsageRecord) (input : RefundProductUsageInput)
    (remaining : List ProductUsageUnit) : Prop where
  given : normalizeUnits (remainingGiven existing input) "remainingUnits" = .ok remaining
  within : unitsWithin remaining (existing.reservedUnits.getD []) = true
  total : totalUnits remaining ≤ existing.reservedQuantity
  lowers : existing.status ≠ .reserved →
    unitsWithin remaining (existing.settledUnits.getD []) = true ∧
      totalUnits remaining ≤ existing.settledQuantity

/-- A settled record is at the target if its settled units are what is to remain. -/
theorem refundReached_iff (h : Sound existing) {remaining : List ProductUsageUnit} :
    refundReached existing (existing.settledUnits.getD []) remaining = true ↔
      existing.status ≠ .reserved ∧ existing.settledUnits.getD [] = remaining := by
  rw [refundReached, decide_eq_true_eq]
  constructor
  · rintro ⟨hsame, hstatus⟩
    refine ⟨fun hs => ?_, hsame⟩
    rw [hs] at hstatus
    simp at hstatus
  · rintro ⟨hs, rfl⟩
    refine ⟨rfl, ?_⟩
    obtain ⟨units, hunits, -, htotal⟩ := h.settled
    rcases hstatus : existing.status with _ | _ | _ | _
    · exact absurd hstatus hs
    · have hfull := h.full hstatus
      rw [hunits, Option.getD_some]
      exact .inr (.inr ⟨rfl, htotal.symm.trans hfull⟩)
    · exact .inl rfl
    · exact .inr (.inl rfl)

/-- **What a refund makes of a record.** -/
theorem refundRecord_eq_ok (h : Sound existing) {input : RefundProductUsageInput}
    {outcome : Option ProductUsageRecord} : refundRecord existing input = .ok outcome ↔
      ∃ remaining, RefundAsked existing input remaining ∧
        outcome = if existing.status ≠ .reserved ∧ existing.settledUnits.getD [] = remaining then
          none else some (refundTo existing input (existing.reservedUnits.getD []) remaining) := by
  have hreserved := h.reservedUnits_eq_ok.1
  obtain ⟨hsettled, hsettledNormal⟩ := h.settledUnits_eq_ok
  obtain ⟨units, hunits, -, htotal⟩ := h.settled
  simp only [refundRecord, bind_eq_ok, hreserved, hsettled, Except.ok.injEq, exists_eq_left',
    assertUnitsWithin, last_guard_eq_ok, guard_eq_ok, not_not, not_lt]
  constructor
  · rintro ⟨remaining, hgiven, ⟨⟩, hwithin, hle, houtcome⟩
    have hnormal := normal_of_normalizeUnits hgiven
    by_cases hreached : existing.status ≠ .reserved ∧ existing.settledUnits.getD [] = remaining
    · rw [if_pos ((refundReached_iff h).mpr hreached), pure_eq_ok] at houtcome
      refine ⟨remaining, ⟨hgiven, hwithin, hle, fun _ => ?_⟩, ?_⟩
      · rw [hreached.2, unitsWithin_iff hnormal hnormal]
        rw [hunits, Option.getD_some] at hreached
        exact ⟨fun _ => le_refl _, by rw [htotal, hreached.2]⟩
      · rw [if_pos hreached, houtcome]
    · rw [if_neg (fun hr => hreached ((refundReached_iff h).mp hr))] at houtcome
      by_cases hs : existing.status = .reserved
      · rw [if_neg (not_not.mpr hs)] at houtcome
        exact ⟨remaining, ⟨hgiven, hwithin, hle, fun hne => absurd hs hne⟩,
          by rw [if_neg hreached]; exact (pure_eq_ok.mp houtcome).symm⟩
      · rw [if_pos hs] at houtcome
        obtain ⟨⟨⟩, hlowers, houtcome⟩ := bind_eq_ok.mp houtcome
        simp only [assertLowers, bind_eq_ok, assertUnitsWithin, last_guard_eq_ok, not_not,
          not_lt] at hlowers
        obtain ⟨⟨⟩, hlowers⟩ := hlowers
        exact ⟨remaining, ⟨hgiven, hwithin, hle, fun _ => hlowers⟩,
          by rw [if_neg hreached]; exact (pure_eq_ok.mp houtcome).symm⟩
  · rintro ⟨remaining, ⟨hgiven, hwithin, hle, hlowers⟩, rfl⟩
    refine ⟨remaining, hgiven, (), hwithin, hle, ?_⟩
    by_cases hreached : existing.status ≠ .reserved ∧ existing.settledUnits.getD [] = remaining
    · rw [if_pos ((refundReached_iff h).mpr hreached), if_pos hreached]
      rfl
    · rw [if_neg (fun hr => hreached ((refundReached_iff h).mp hr)), if_neg hreached]
      by_cases hs : existing.status = .reserved
      · rw [if_neg (not_not.mpr hs)]
        rfl
      · have hlower : assertLowers existing (existing.settledUnits.getD []) remaining = .ok () := by
          simp only [assertLowers, bind_eq_ok, assertUnitsWithin, last_guard_eq_ok, not_not, not_lt]
          exact ⟨(), hlowers hs⟩
        rw [if_pos hs, hlower]
        rfl

/-- **What a settlement makes of a record**: a replay, or the first settlement. -/
theorem settleRecord_eq_ok {outcome : Option ProductUsageRecord}
    (h : settleRecord existing input = .ok outcome) : existing.status ≠ .reserved ∧ outcome = none ∨
      existing.status = .reserved ∧ ∃ units credits next,
        normalizeUnits (input.settledUnits.getD
          (legacyUnits existing.resource (input.settledQuantity.getD 0))) "settledUnits" =
            .ok units ∧
        resolvePartialRefundCredits existing input = .ok credits ∧
          settleReserved existing input units credits = .ok next ∧ outcome = some next := by
  simp only [settleRecord, bind_eq_ok] at h
  obtain ⟨units, hunits, credits, hcredits, h⟩ := h
  by_cases hs : existing.status = .reserved
  · rw [if_neg (not_not.mpr hs)] at h
    rcases hnext : settleReserved existing input units credits with e | next
    · rw [hnext] at h
      cases h
    · rw [hnext] at h
      exact .inr ⟨hs, units, credits, next, hunits, hcredits, hnext, (Except.ok.inj h).symm⟩
  · rw [if_pos hs] at h
    obtain ⟨before, -, h⟩ := bind_eq_ok.mp h
    split at h
    · exact .inl ⟨hs, (pure_eq_ok.mp h).symm⟩
    · exact absurd h (by simp)

/-! ### The steps -/

section

variable {Q : ProductUsageRecord → MemoryProductUsageLedger → Prop}
  {E : Thrown → MemoryProductUsageLedger → Prop}

/-- **A change of a task's record.** -/
theorem wp_changeRecord {taskId : String}
    {change : ProductUsageRecord → Except Thrown (Option ProductUsageRecord)}
    (hnone : ledger.byTask.get? taskId = none → ∀ e, E e ledger)
    (hsome : ∀ existing, ledger.byTask.get? taskId = some existing →
      (∀ e, change existing = .error e → E e ledger) ∧
        (change existing = .ok none → Q existing ledger) ∧
          ∀ next, change existing = .ok (some next) →
            Q next ⟨ledger.byTask.set taskId next⟩) :
    Wp (changeRecord taskId change) ledger Q E := by
  simp only [changeRecord, wp_bind, wp_get]
  rcases hget : ledger.byTask.get? taskId with _ | existing
  · simp only [wp_throw]
    exact hnone hget _
  · obtain ⟨herror, hreplay, hnext⟩ := hsome existing hget
    simp only [wp_bind, wp_check]
    refine ⟨fun outcome houtcome => ?_, herror⟩
    rcases outcome with _ | next
    · simp only [wp_pure]
      exact hreplay houtcome
    · simp only [put, wp_bind, wp_modify, wp_pure]
      exact hnext next houtcome

/-- A reservation is stored for a task without one. -/
theorem wp_reserve {input : ReserveProductUsageInput} (hE : ∀ e, E e ledger)
    (hsame : ∀ existing, ledger.byTask.get? input.taskId = some existing →
      existing.quoteId = input.quoteId → Q existing ledger)
    (hnew : ledger.byTask.get? input.taskId = none → ∀ units,
      normalizeUnits (input.units.getD (legacyUnits input.resource (input.quantity.getD 0)))
        "units" = .ok units → assertCredits input.credits = .ok () →
        Q (reservation input units (onlyResource units) input.createdAt)
          ⟨ledger.byTask.set input.taskId
            (reservation input units (onlyResource units) input.createdAt)⟩) :
    Wp (reserve input) ledger Q E := by
  simp only [reserve, wp_bind, wp_check, wp_ite, wp_throw, wp_get]
  refine ⟨fun units hunits => ⟨fun _ hcredits => ⟨fun _ => hE _, fun _ => ?_⟩, fun _ _ => hE _⟩,
    fun _ _ => hE _⟩
  rcases hget : ledger.byTask.get? input.taskId with _ | existing
  · simp only [put, wp_bind, wp_modify, wp_pure]
    exact hnew hget units hunits hcredits
  · simp only [wp_bind, wp_check, wp_ite, wp_throw, wp_pure]
    refine ⟨fun same hok => ⟨fun htrue => hsame existing hget ?_, fun _ => hE _⟩, fun _ _ => hE _⟩
    by_contra hne
    rw [sameReservation, if_pos hne, pure_eq_ok] at hok
    rw [← hok] at htrue
    cases htrue

/-- A reservation takes the place of the one it names, if that is not settled. -/
theorem wp_replaceReservation {input : ReplaceProductUsageReservationInput}
    (hE : ∀ e, E e ledger)
    (hnew : ∀ existing, ledger.byTask.get? input.taskId = some existing →
      existing.status = .reserved → ∀ units,
      normalizeUnits (input.units.getD []) "units" = .ok units →
      assertCredits input.credits = .ok () →
        Q (reservation input.toReserveProductUsageInput units none existing.createdAt)
          ⟨ledger.byTask.set input.taskId
            (reservation input.toReserveProductUsageInput units none existing.createdAt)⟩) :
    Wp (replaceReservation input) ledger Q E := by
  simp only [replaceReservation, wp_bind, wp_get]
  split
  · simp only [wp_throw]
    exact hE _
  · next existing hget =>
    obtain ⟨hexisting, hmatches⟩ := Option.filter_eq_some_iff.mp hget
    simp only [put, wp_bind, wp_check, wp_modify, wp_pure]
    refine ⟨fun units hunits => ⟨fun _ hcredits => ?_, fun _ _ => hE _⟩, fun _ _ => hE _⟩
    exact hnew existing hexisting (of_decide_eq_true hmatches).1 units hunits hcredits

end

/-- A settlement leaves a sound record sound. -/
theorem sound_settleRecord (h : Sound existing)
    (hnext : settleRecord existing input = .ok (some next)) :
    next.taskId = existing.taskId ∧ Sound next := by
  rcases settleRecord_eq_ok hnext with ⟨-, hnone⟩ | ⟨hs, units, credits, _, hunits, hcredits, hsettle, heq⟩
  · exact nomatch hnone
  · obtain rfl := Option.some.inj heq
    refine ⟨?_, (sound_settleReserved h hs (normal_of_normalizeUnits hunits) hcredits hsettle).1⟩
    simp only [settleReserved, bind_eq_ok, guard_eq_ok, pure_eq_ok] at hsettle
    obtain ⟨-, -, -, -, -, rfl⟩ := hsettle
    rfl

/-- A refund leaves a sound record sound. -/
theorem sound_refundRecord {input : RefundProductUsageInput} (h : Sound existing)
    (hnext : refundRecord existing input = .ok (some next)) :
    next.taskId = existing.taskId ∧ Sound next := by
  obtain ⟨remaining, hasked, heq⟩ := (refundRecord_eq_ok h).mp hnext
  split at heq
  · exact nomatch heq
  · obtain rfl := Option.some.inj heq
    exact ⟨rfl, (sound_refundTo h (normal_of_normalizeUnits hasked.given) hasked.within).1⟩

/-- **Every call keeps every stored record sound.** -/
theorem step_sound (h : AllSound ledger) (call : Call) : AllSound (step ledger call) := by
  have hkeeps : Keeps AllSound (perform call) ledger := by
    cases call with
    | reserve input =>
      exact wp_reserve (fun _ => h) (fun _ _ _ => h) fun _ units hunits hcredits =>
        allSound_set h rfl (sound_reservation (normal_of_normalizeUnits hunits) hcredits _ _)
    | replaceReservation input =>
      exact wp_replaceReservation (fun _ => h) fun existing _ _ units hunits hcredits =>
        allSound_set h rfl (sound_reservation (normal_of_normalizeUnits hunits) hcredits _ _)
    | settle input =>
      refine wp_changeRecord (fun _ _ => h) fun existing hget => ⟨fun _ _ => h, fun _ => h,
        fun next hnext => ?_⟩
      obtain ⟨htask, hsound⟩ := h _ _ hget
      obtain ⟨hsame, hnextSound⟩ := sound_settleRecord hsound hnext
      exact allSound_set h (hsame.trans htask) hnextSound
    | refund input =>
      refine wp_changeRecord (fun _ _ => h) fun existing hget => ⟨fun _ _ => h, fun _ => h,
        fun next hnext => ?_⟩
      obtain ⟨htask, hsound⟩ := h _ _ hget
      obtain ⟨hsame, hnextSound⟩ := sound_refundRecord hsound hnext
      exact allSound_set h (hsame.trans htask) hnextSound
  exact wp_final.mp hkeeps

end MemoryProductUsageLedger

end MeiyeAgent
