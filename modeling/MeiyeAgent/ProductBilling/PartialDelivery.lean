import MeiyeAgent.ProductBilling.UsageSound

/-!
# ProductBilling/PartialDelivery — credits for what was delivered

A quote that froze `totalUnits` and delivered fewer keeps the credits of the delivered share; a
package does so allocation by allocation.  Either way the credits split into what is settled and
what goes back:

* `numberShare` (`Foundation/Numbers`) — the delivered share as doubles give it.
* `computePartialCreditSettlement_eq_ok` — the split of one reservation.
-/

namespace MeiyeAgent

open Effect

/-! ## Data -/

inductive ProductQuoteCarrier
  | note
  | copy
  | media
  deriving DecidableEq, Repr

structure CatalogModelRef where
  id : String
  revision : String
  deriving DecidableEq, Repr

structure ProductQuotePackageAllocation where
  allocationId : String
  carrier : ProductQuoteCarrier
  deliveryUnits : Int
  creditCost : Int
  failureRefundsCredits : Bool
  operation : String
  catalogModel : CatalogModelRef
  routeSnapshotRef : String
  rightsRevisionRefs : List String
  deriving DecidableEq, Repr

structure PartialDeliveryBasis where
  totalUnits : Int
  deliveredUnits : Int
  deriving DecidableEq, Repr

structure DeliveredAllocation where
  allocationId : String
  deliveredUnits : Int
  deriving DecidableEq, Repr

structure PackagePartialDeliveryBasis where
  allocations : List DeliveredAllocation
  deriving DecidableEq, Repr

structure PartialCreditSettlement where
  totalUnits : Int
  deliveredUnits : Int
  failedUnits : Int
  reservedCredits : Int
  settledCredits : Int
  refundCredits : Int
  failureRefundsCredits : Bool
  refundRule : String
  deriving DecidableEq, Repr

structure PackagePartialCreditSettlement where
  allocations : List (String × PartialCreditSettlement)
  reservedCredits : Int
  settledCredits : Int
  refundCredits : Int
  deriving DecidableEq, Repr

/-! ## One reservation -/

def isPartialDeliveryBasis (value : PartialDeliveryBasis) : Bool :=
  isSafeInteger value.totalUnits ∧ isSafeInteger value.deliveredUnits ∧ value.totalUnits > 0 ∧
    value.deliveredUnits ≥ 0 ∧ value.deliveredUnits ≤ value.totalUnits

def isPackagePartialDeliveryBasis (value : PackagePartialDeliveryBasis) : Bool :=
  value.allocations ≠ [] ∧ value.allocations.all fun allocation =>
    ¬ Text.isBlank allocation.allocationId ∧ isSafeInteger allocation.deliveredUnits ∧
      allocation.deliveredUnits ≥ 0

def partialDeliveryRefundRule (failedUnits refundCredits : Int) (failureRefundsCredits : Bool) :
    String :=
  if failedUnits = 0 then "无失败页，不退费。"
  else if refundCredits > 0 then
    "失败页按模型失败退还开关退回 " ++ toString refundCredits ++ " 积分；成功页保留且不重做。"
  else if ¬ failureRefundsCredits then
    "失败页可重做，但当前模型关闭失败退还，已扣积分不退；成功页保留。"
  else "失败页可重做；无已扣积分需退还。成功页保留。"

/-- The credits that go back for the failed units. -/
def partialRefund (reservedCredits : Int) (failureRefundsCredits : Bool)
    (basis : PartialDeliveryBasis) : Int :=
  if basis.totalUnits - basis.deliveredUnits > 0 ∧ failureRefundsCredits then
    reservedCredits - numberShare reservedCredits basis.deliveredUnits basis.totalUnits
  else 0

def computePartialCreditSettlement (reservedCredits : Int) (failureRefundsCredits : Bool)
    (basis : PartialDeliveryBasis) : Except Thrown PartialCreditSettlement := do
  if ¬ isPartialDeliveryBasis basis then
    throw (.domain .INVALID_STATE ("Partial delivery settlement requires " ++
      "0 <= deliveredUnits <= totalUnits with a positive totalUnits."))
  if ¬ isSafeInteger reservedCredits ∨ reservedCredits < 0 then
    throw (.domain .INVALID_STATE
      "Partial delivery settlement requires non-negative integer reserved credits.")
  let failedUnits := basis.totalUnits - basis.deliveredUnits
  let refundCredits := partialRefund reservedCredits failureRefundsCredits basis
  return {
    totalUnits := basis.totalUnits
    deliveredUnits := basis.deliveredUnits
    failedUnits
    reservedCredits
    settledCredits := reservedCredits - refundCredits
    refundCredits
    failureRefundsCredits
    refundRule := partialDeliveryRefundRule failedUnits refundCredits failureRefundsCredits }

/-! ## A package -/

/-- One allocation joins the frozen ones. -/
def freezeAllocation (frozenById : OrderedMap String ProductQuotePackageAllocation)
    (allocation : ProductQuotePackageAllocation) :
    Except Thrown (OrderedMap String ProductQuotePackageAllocation) := do
  if Text.isBlank allocation.allocationId ∨ ¬ isSafeInteger allocation.deliveryUnits ∨
      allocation.deliveryUnits < 1 ∨ ¬ isSafeInteger allocation.creditCost ∨
        allocation.creditCost < 0 then
    throw (.domain .INVALID_STATE "Package quote contains an invalid credit allocation.")
  if (frozenById.get? allocation.allocationId).isSome then
    throw (.domain .INVALID_STATE
      ("Package quote contains duplicate allocation " ++ allocation.allocationId ++ "."))
  return frozenById.set allocation.allocationId allocation

/-- One delivery joins the delivered ones. -/
def collectDelivered (frozenById : OrderedMap String ProductQuotePackageAllocation)
    (deliveredById : OrderedMap String Int) (delivered : DeliveredAllocation) :
    Except Thrown (OrderedMap String Int) := do
  if (deliveredById.get? delivered.allocationId).isSome then
    throw (.domain .INVALID_STATE ("Package partial delivery contains duplicate allocation " ++
      delivered.allocationId ++ "."))
  match frozenById.get? delivered.allocationId with
  | none => throw (.domain .INVALID_STATE
      ("Package partial delivery contains unknown allocation " ++ delivered.allocationId ++ "."))
  | some frozen =>
    if delivered.deliveredUnits > frozen.deliveryUnits then
      throw (.domain .INVALID_STATE ("Package allocation " ++ delivered.allocationId ++
        " delivered more than its frozen units."))
    return deliveredById.set delivered.allocationId delivered.deliveredUnits

def computePackagePartialCreditSettlement (allocations : List ProductQuotePackageAllocation)
    (partialDelivery : PackagePartialDeliveryBasis) :
    Except Thrown PackagePartialCreditSettlement := do
  if ¬ isPackagePartialDeliveryBasis partialDelivery then
    throw (.domain .INVALID_STATE
      "Package partial delivery settlement requires allocation delivery evidence.")
  if allocations = [] then
    throw (.domain .INVALID_STATE
      "Package partial delivery settlement requires at least one allocation.")
  let frozenById ← allocations.foldlM freezeAllocation .empty
  let deliveredById ← partialDelivery.allocations.foldlM (collectDelivered frozenById) .empty
  if deliveredById.entries.length ≠ frozenById.entries.length then
    throw (.domain .INVALID_STATE
      "Package partial delivery must include every frozen allocation exactly once.")
  let settled ← allocations.mapM fun allocation => do
    -- every frozen allocation is delivered: the counts are equal
    let settlement ← computePartialCreditSettlement allocation.creditCost
      allocation.failureRefundsCredits
      ⟨allocation.deliveryUnits, (deliveredById.get? allocation.allocationId).getD 0⟩
    return (allocation.allocationId, settlement)
  return {
    allocations := settled
    reservedCredits := (settled.map (·.2.reservedCredits)).foldl addNumbers 0
    settledCredits := (settled.map (·.2.settledCredits)).foldl addNumbers 0
    refundCredits := (settled.map (·.2.refundCredits)).foldl addNumbers 0 }

/-! ## The split -/

/-- **What was reserved is settled or refunded**, neither below zero. -/
structure Splits (reserved settled refunded : Int) : Prop where
  settled_nonneg : 0 ≤ settled
  refunded_nonneg : 0 ≤ refunded
  sum : settled + refunded = reserved

theorem Splits.add {r s f r' s' f' : Int} (h : Splits r s f) (h' : Splits r' s' f') :
    Splits (r + r') (s + s') (f + f') where
  settled_nonneg := add_nonneg h.settled_nonneg h'.settled_nonneg
  refunded_nonneg := add_nonneg h.refunded_nonneg h'.refunded_nonneg
  sum := by rw [← h.sum, ← h'.sum]; ring

theorem Splits.nonneg {r s f : Int} (h : Splits r s f) : 0 ≤ r := by
  rw [← h.sum]
  exact add_nonneg h.settled_nonneg h.refunded_nonneg

theorem computePartialCreditSettlement_eq_ok {reservedCredits : Int} {policy : Bool}
    {basis : PartialDeliveryBasis} {settlement : PartialCreditSettlement}
    (h : computePartialCreditSettlement reservedCredits policy basis = .ok settlement) :
    settlement.reservedCredits = reservedCredits ∧
      Splits reservedCredits settlement.settledCredits settlement.refundCredits := by
  simp only [computePartialCreditSettlement, guard_eq_ok, pure_eq_ok, not_not, not_or,
    not_lt] at h
  obtain ⟨hbasis, ⟨hsafe, hreserved⟩, rfl⟩ := h
  obtain ⟨hwhole, -, -, hdelivered, -⟩ := of_decide_eq_true hbasis
  have hcredits := (of_decide_eq_true hsafe).2
  have hunits := (of_decide_eq_true hwhole).2
  rw [maxSafeInteger] at hcredits hunits
  refine ⟨rfl, ?_⟩
  dsimp only [partialRefund]
  split
  · next hfailed =>
    have hlt := sub_pos.mp hfailed.1
    have hshare := numberShare_le hreserved (by omega) hdelivered hlt (by omega)
    have hnonneg := numberShare_nonneg hreserved hdelivered (hdelivered.trans hlt.le)
    exact ⟨by omega, by omega, by omega⟩
  · exact ⟨by omega, le_refl _, by omega⟩

/-- The settlements of a package, allocation by allocation. -/
theorem computePackagePartialCreditSettlement_each
    {allocations : List ProductQuotePackageAllocation} {basis : PackagePartialDeliveryBasis}
    {settlement : PackagePartialCreditSettlement}
    (h : computePackagePartialCreditSettlement allocations basis = .ok settlement) :
    ∃ settled : List (String × PartialCreditSettlement),
      List.Forall₂ (fun cost one => Splits cost one.2.settledCredits one.2.refundCredits)
        (allocations.map (·.creditCost)) settled ∧
      settlement.settledCredits = (settled.map (·.2.settledCredits)).foldl addNumbers 0 ∧
      settlement.refundCredits = (settled.map (·.2.refundCredits)).foldl addNumbers 0 := by
  simp only [computePackagePartialCreditSettlement, guard_eq_ok, bind_eq_ok, pure_eq_ok,
    list_mapM_eq_ok] at h
  obtain ⟨-, -, frozenById, -, deliveredById, -, -, settled, hsettled, rfl⟩ := h
  refine ⟨settled, List.forall₂_map_left_iff.mpr (hsettled.imp ?_), rfl, rfl⟩
  rintro allocation _ ⟨one, hone, rfl⟩
  exact (computePartialCreditSettlement_eq_ok hone).2

/-- The splits of a list add up. -/
theorem splits_sum {costs : List Int} {settled : List (String × PartialCreditSettlement)}
    (h : List.Forall₂ (fun cost one => Splits cost one.2.settledCredits one.2.refundCredits) costs
      settled) :
    Splits costs.sum (settled.map (·.2.settledCredits)).sum
      (settled.map (·.2.refundCredits)).sum := by
  induction h with
  | nil => exact ⟨le_refl _, le_refl _, rfl⟩
  | cons hhead _ ih => exact hhead.add ih

theorem nonneg_of_splits {costs : List Int} {settled : List (String × PartialCreditSettlement)}
    (h : List.Forall₂ (fun cost one => Splits cost one.2.settledCredits one.2.refundCredits) costs
      settled) :
    (∀ n ∈ costs, 0 ≤ n) ∧ (∀ n ∈ settled.map (·.2.settledCredits), 0 ≤ n) ∧
      ∀ n ∈ settled.map (·.2.refundCredits), 0 ≤ n := by
  induction h with
  | nil => exact ⟨nofun, nofun, nofun⟩
  | cons hhead _ ih =>
    obtain ⟨hcosts, hkept, hback⟩ := ih
    exact ⟨List.forall_mem_cons.mpr ⟨hhead.nonneg, hcosts⟩,
      List.forall_mem_cons.mpr ⟨hhead.settled_nonneg, hkept⟩,
      List.forall_mem_cons.mpr ⟨hhead.refunded_nonneg, hback⟩⟩

theorem computePackagePartialCreditSettlement_nonneg
    {allocations : List ProductQuotePackageAllocation} {basis : PackagePartialDeliveryBasis}
    {settlement : PackagePartialCreditSettlement}
    (h : computePackagePartialCreditSettlement allocations basis = .ok settlement) :
    0 ≤ settlement.settledCredits := by
  obtain ⟨settled, heach, hsettled, -⟩ := computePackagePartialCreditSettlement_each h
  rw [hsettled]
  exact foldl_addNumbers_nonneg (nonneg_of_splits heach).2.1 (le_refl 0)

end MeiyeAgent
