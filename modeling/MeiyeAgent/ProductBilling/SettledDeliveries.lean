import MeiyeAgent.ProductBilling.PartialDelivery

/-!
# ProductBilling/SettledDeliveries — the credits of a delivery are settled exactly

One reservation keeps the share of what was delivered, and a package does so allocation by
allocation, once the evidence names every allocation of it and no other.

* `Evidenced` — the evidence gives each frozen allocation its delivered units, once.
* `computePackage_eq_ok` — **a package is settled exactly if it is frozen and evidenced**.
* `deliveriesSettled` — bounds, monotonicity and sums of both settlements, in any order of the
  evidence.  A model whose failures refund nothing keeps every credit, and a total is exact while
  the credits add up to a safe integer.
-/

namespace MeiyeAgent

open Effect

/-! ## One reservation -/

/-- **What is settled of a reservation**, for any number of delivered units. -/
structure ReservationSettled (reserved : Int) (policy : Bool) (total : Int) : Prop where
  accepts : ∀ delivered, (∃ settlement,
    computePartialCreditSettlement reserved policy ⟨total, delivered⟩ = .ok settlement) ↔
      isPartialDeliveryBasis ⟨total, delivered⟩ = true ∧ isSafeInteger reserved = true ∧
        0 ≤ reserved
  splits : ∀ delivered settlement,
    computePartialCreditSettlement reserved policy ⟨total, delivered⟩ = .ok settlement →
      settlement.reservedCredits = reserved ∧
        Splits reserved settlement.settledCredits settlement.refundCredits
  all : ∀ settlement,
    computePartialCreditSettlement reserved policy ⟨total, total⟩ = .ok settlement →
      settlement.settledCredits = reserved
  nothing : ∀ settlement,
    computePartialCreditSettlement reserved policy ⟨total, 0⟩ = .ok settlement →
      settlement.settledCredits = if policy then 0 else reserved
  grows : ∀ fewer more settlement settlement', fewer ≤ more →
    computePartialCreditSettlement reserved policy ⟨total, fewer⟩ = .ok settlement →
    computePartialCreditSettlement reserved policy ⟨total, more⟩ = .ok settlement' →
      settlement.settledCredits ≤ settlement'.settledCredits

variable {reserved total : Int} {policy : Bool} {basis : PartialDeliveryBasis}
  {settlement : PartialCreditSettlement}

/-- A settlement is of a basis and of credits that are in bounds. -/
theorem computePartial_eq_ok :
    computePartialCreditSettlement reserved policy basis = .ok settlement ↔
      (isPartialDeliveryBasis basis = true ∧ isSafeInteger reserved = true ∧ 0 ≤ reserved) ∧
        settlement = {
          totalUnits := basis.totalUnits
          deliveredUnits := basis.deliveredUnits
          failedUnits := basis.totalUnits - basis.deliveredUnits
          reservedCredits := reserved
          settledCredits := reserved - partialRefund reserved policy basis
          refundCredits := partialRefund reserved policy basis
          failureRefundsCredits := policy
          refundRule := partialDeliveryRefundRule (basis.totalUnits - basis.deliveredUnits)
            (partialRefund reserved policy basis) policy } := by
  simp only [computePartialCreditSettlement, guard_eq_ok, pure_eq_ok, not_not, not_or, not_lt,
    and_assoc, eq_comm (a := settlement)]

theorem settled_of_eq_ok
    (h : computePartialCreditSettlement reserved policy basis = .ok settlement) :
    settlement.settledCredits = reserved - partialRefund reserved policy basis := by
  rw [(computePartial_eq_ok.mp h).2]

/-- **More units return less.** -/
theorem partialRefund_anti {fewer more : Int} (hreserved : 0 ≤ reserved)
    (hsafe : isSafeInteger reserved = true) (hfewer : isPartialDeliveryBasis ⟨total, fewer⟩ = true)
    (hle : fewer ≤ more) :
    partialRefund reserved policy ⟨total, more⟩ ≤ partialRefund reserved policy ⟨total, fewer⟩ := by
  obtain ⟨hwhole, -, htotal, hnonneg, -⟩ := of_decide_eq_true hfewer
  have hcredits := (of_decide_eq_true hsafe).2
  have hunits := (of_decide_eq_true hwhole).2
  dsimp only at htotal hnonneg hunits
  rw [maxSafeInteger] at hcredits hunits
  by_cases hmore : total - more > 0 ∧ policy = true
  · have hless : total - fewer > 0 ∧ policy = true := ⟨by omega, hmore.2⟩
    have hshare := @numberShare_mono _ _ _ total hreserved hnonneg htotal.le hle
    rw [partialRefund, partialRefund, if_pos hmore, if_pos hless]
    dsimp only
    omega
  · rw [partialRefund, if_neg hmore, partialRefund]
    split
    · next hless =>
      have hlt : fewer < total := sub_pos.mp hless.1
      have hshare := numberShare_le hreserved (by omega) hnonneg hlt (by omega)
      exact sub_nonneg.mpr hshare
    · exact le_refl 0

theorem reservationSettled (reserved : Int) (policy : Bool) (total : Int) :
    ReservationSettled reserved policy total where
  accepts delivered := by
    simp only [computePartial_eq_ok, exists_and_left, exists_eq, and_true]
  splits _ _ := computePartialCreditSettlement_eq_ok
  all settlement h := by
    rw [settled_of_eq_ok h, partialRefund, if_neg (by simp), sub_zero]
  nothing settlement h := by
    obtain ⟨⟨hbasis, -⟩, -⟩ := computePartial_eq_ok.mp h
    have htotal : total > 0 := (of_decide_eq_true hbasis).2.2.1
    rw [settled_of_eq_ok h, partialRefund, numberShare_zero]
    cases policy with
    | true => simp [htotal]
    | false => simp
  grows fewer more settlement settlement' hle h h' := by
    obtain ⟨⟨hbasis, hsafe, hreserved⟩, -⟩ := computePartial_eq_ok.mp h
    have hrefund := @partialRefund_anti _ _ policy _ _ hreserved hsafe hbasis hle
    rw [settled_of_eq_ok h, settled_of_eq_ok h']
    omega

/-! ## A package -/

/-- **A package a quote can freeze**: allocations in bounds, under ids of their own. -/
structure FrozenPackage (allocations : List ProductQuotePackageAllocation) : Prop where
  nonempty : allocations ≠ []
  inBounds : ∀ allocation ∈ allocations, Text.isBlank allocation.allocationId = false ∧
    isSafeInteger allocation.deliveryUnits = true ∧ 1 ≤ allocation.deliveryUnits ∧
      isSafeInteger allocation.creditCost = true ∧ 0 ≤ allocation.creditCost
  ids : (allocations.map (·.allocationId)).Nodup

/-- **The evidence gives every allocation its units**, once and to no other. -/
structure Evidenced (allocations : List ProductQuotePackageAllocation)
    (evidence : List DeliveredAllocation) : Prop where
  ids : (evidence.map (·.allocationId)).Perm (allocations.map (·.allocationId))
  within : ∀ delivered ∈ evidence, ∀ allocation ∈ allocations,
    allocation.allocationId = delivered.allocationId →
      0 ≤ delivered.deliveredUnits ∧ delivered.deliveredUnits ≤ allocation.deliveryUnits

/-- `one` is the settlement of an allocation for the units the evidence gives it. -/
def SettledBy (evidence : List DeliveredAllocation) (allocation : ProductQuotePackageAllocation)
    (one : String × PartialCreditSettlement) : Prop :=
  one.1 = allocation.allocationId ∧ ∃ delivered ∈ evidence,
    delivered.allocationId = allocation.allocationId ∧
      computePartialCreditSettlement allocation.creditCost allocation.failureRefundsCredits
        ⟨allocation.deliveryUnits, delivered.deliveredUnits⟩ = .ok one.2

/-- **What is settled of a package**, for any evidence. -/
structure PackageSettled (allocations : List ProductQuotePackageAllocation) : Prop where
  accepts : ∀ evidence, (∃ settlement,
    computePackagePartialCreditSettlement allocations ⟨evidence⟩ = .ok settlement) ↔
      FrozenPackage allocations ∧ Evidenced allocations evidence
  each : ∀ evidence settlement,
    computePackagePartialCreditSettlement allocations ⟨evidence⟩ = .ok settlement →
      List.Forall₂ (SettledBy evidence) allocations settlement.allocations
  totals : ∀ evidence settlement, (allocations.map (·.creditCost)).sum ≤ maxSafeInteger →
    computePackagePartialCreditSettlement allocations ⟨evidence⟩ = .ok settlement →
      settlement.reservedCredits = (settlement.allocations.map (·.2.reservedCredits)).sum ∧
        settlement.settledCredits = (settlement.allocations.map (·.2.settledCredits)).sum ∧
          settlement.refundCredits = (settlement.allocations.map (·.2.refundCredits)).sum
  anyOrder : ∀ evidence evidence', evidence.Perm evidence' → ∀ settlement,
    computePackagePartialCreditSettlement allocations ⟨evidence⟩ = .ok settlement ↔
      computePackagePartialCreditSettlement allocations ⟨evidence'⟩ = .ok settlement

variable {allocations : List ProductQuotePackageAllocation} {evidence : List DeliveredAllocation}

theorem freezeAllocation_eq_ok (frozenById : OrderedMap String ProductQuotePackageAllocation)
    (allocation : ProductQuotePackageAllocation)
    (next : OrderedMap String ProductQuotePackageAllocation) :
    freezeAllocation frozenById allocation = .ok next ↔
      (Text.isBlank allocation.allocationId = false ∧
        isSafeInteger allocation.deliveryUnits = true ∧ 1 ≤ allocation.deliveryUnits ∧
          isSafeInteger allocation.creditCost = true ∧ 0 ≤ allocation.creditCost) ∧
        frozenById.get? allocation.allocationId = none ∧
          frozenById.set allocation.allocationId allocation = next := by
  simp only [freezeAllocation, guard_eq_ok, pure_eq_ok, not_or, not_lt, Bool.not_eq_true,
    Bool.not_eq_false, Option.isSome_eq_false_iff, Option.isNone_iff_eq_none]

/-- The frozen allocations, by id. -/
def frozenOf (allocations : List ProductQuotePackageAllocation) :
    OrderedMap String ProductQuotePackageAllocation :=
  OrderedMap.empty.setAll (allocations.map fun allocation => (allocation.allocationId, allocation))

theorem foldlM_freezeAllocation {frozenById : OrderedMap String ProductQuotePackageAllocation} :
    allocations.foldlM freezeAllocation .empty = .ok frozenById ↔
      (∀ allocation ∈ allocations, Text.isBlank allocation.allocationId = false ∧
        isSafeInteger allocation.deliveryUnits = true ∧ 1 ≤ allocation.deliveryUnits ∧
          isSafeInteger allocation.creditCost = true ∧ 0 ≤ allocation.creditCost) ∧
        (allocations.map (·.allocationId)).Nodup ∧ frozenOf allocations = frozenById := by
  simp only [OrderedMap.foldlM_set_eq_ok freezeAllocation_eq_ok, OrderedMap.get?_empty, and_true]
  rfl

theorem get?_frozenOf (hids : (allocations.map (·.allocationId)).Nodup) {id : String}
    {allocation : ProductQuotePackageAllocation} :
    (frozenOf allocations).get? id = some allocation ↔
      allocation ∈ allocations ∧ allocation.allocationId = id := by
  have hkeys : ((allocations.map fun allocation => (allocation.allocationId, allocation)).map
      Prod.fst).Nodup := by
    rw [List.map_map]
    exact hids
  rw [OrderedMap.get?_eq_some, frozenOf, OrderedMap.entries_setAll_empty hkeys]
  simp only [List.mem_map, Prod.mk.injEq]
  constructor
  · rintro ⟨_, hmem, rfl, rfl⟩
    exact ⟨hmem, rfl⟩
  · rintro ⟨hmem, rfl⟩
    exact ⟨_, hmem, rfl, rfl⟩

theorem collectDelivered_eq_ok (frozenById : OrderedMap String ProductQuotePackageAllocation)
    (deliveredById : OrderedMap String Int) (delivered : DeliveredAllocation)
    (next : OrderedMap String Int) :
    collectDelivered frozenById deliveredById delivered = .ok next ↔
      (∃ frozen, frozenById.get? delivered.allocationId = some frozen ∧
        delivered.deliveredUnits ≤ frozen.deliveryUnits) ∧
        deliveredById.get? delivered.allocationId = none ∧
          deliveredById.set delivered.allocationId delivered.deliveredUnits = next := by
  rw [collectDelivered, guard_eq_ok]
  cases hfrozen : frozenById.get? delivered.allocationId with
  | none => simp
  | some frozen =>
    simp only [guard_eq_ok, pure_eq_ok, not_lt, Bool.not_eq_true, Option.isSome_eq_false_iff,
      Option.isNone_iff_eq_none, Option.some.injEq, exists_eq_left', gt_iff_lt]
    exact and_left_comm

/-- The delivered units, by id. -/
def deliveredOf (evidence : List DeliveredAllocation) : OrderedMap String Int :=
  OrderedMap.empty.setAll (evidence.map fun delivered =>
    (delivered.allocationId, delivered.deliveredUnits))

theorem foldlM_collectDelivered {frozenById : OrderedMap String ProductQuotePackageAllocation}
    {deliveredById : OrderedMap String Int} :
    evidence.foldlM (collectDelivered frozenById) .empty = .ok deliveredById ↔
      (∀ delivered ∈ evidence, ∃ frozen,
        frozenById.get? delivered.allocationId = some frozen ∧
          delivered.deliveredUnits ≤ frozen.deliveryUnits) ∧
        (evidence.map (·.allocationId)).Nodup ∧ deliveredOf evidence = deliveredById := by
  simp only [OrderedMap.foldlM_set_eq_ok (collectDelivered_eq_ok frozenById), OrderedMap.get?_empty,
    and_true]
  rfl

theorem entries_deliveredOf (hids : (evidence.map (·.allocationId)).Nodup) :
    (deliveredOf evidence).entries = evidence.map fun delivered =>
      (delivered.allocationId, delivered.deliveredUnits) := by
  refine OrderedMap.entries_setAll_empty ?_
  rw [List.map_map]
  exact hids

theorem get?_deliveredOf (hids : (evidence.map (·.allocationId)).Nodup)
    {delivered : DeliveredAllocation} (hmem : delivered ∈ evidence) :
    (deliveredOf evidence).get? delivered.allocationId = some delivered.deliveredUnits := by
  rw [OrderedMap.get?_eq_some, entries_deliveredOf hids]
  exact List.mem_map.mpr ⟨delivered, hmem, rfl⟩

/-- **Evidence of as many ids as are frozen, each of them frozen, is of every id.** -/
theorem evidenced_iff (hfrozen : FrozenPackage allocations) :
    (isPackagePartialDeliveryBasis ⟨evidence⟩ = true ∧
      (∀ delivered ∈ evidence, ∃ frozen,
        (frozenOf allocations).get? delivered.allocationId = some frozen ∧
          delivered.deliveredUnits ≤ frozen.deliveryUnits) ∧
      (evidence.map (·.allocationId)).Nodup ∧ evidence.length = allocations.length) ↔
        Evidenced allocations evidence := by
  simp only [get?_frozenOf hfrozen.ids, isPackagePartialDeliveryBasis, decide_eq_true_eq,
    List.all_eq_true]
  constructor
  · rintro ⟨⟨-, hbasis⟩, hfound, hnodup, hlength⟩
    refine ⟨(List.subperm_of_subset hnodup ?_).perm_of_length_le ?_, ?_⟩
    · intro id hid
      obtain ⟨delivered, hmem, rfl⟩ := List.mem_map.mp hid
      obtain ⟨frozen, ⟨hin, hsame⟩, -⟩ := hfound delivered hmem
      exact List.mem_map.mpr ⟨frozen, hin, hsame⟩
    · rw [List.length_map, List.length_map, hlength]
    · intro delivered hmem allocation hin hsame
      obtain ⟨frozen, ⟨hin', hsame'⟩, hle⟩ := hfound delivered hmem
      obtain rfl := List.inj_on_of_nodup_map hfrozen.ids hin' hin (hsame'.trans hsame.symm)
      exact ⟨(hbasis delivered hmem).2.2, hle⟩
  · rintro ⟨hids, hwithin⟩
    have hlength : evidence.length = allocations.length := by
      simpa only [List.length_map] using hids.length_eq
    have hfound : ∀ delivered ∈ evidence, ∃ allocation ∈ allocations,
        allocation.allocationId = delivered.allocationId := fun delivered hmem =>
      List.mem_map.mp (hids.subset (List.mem_map.mpr ⟨delivered, hmem, rfl⟩))
    refine ⟨⟨?_, fun delivered hmem => ?_⟩, fun delivered hmem => ?_,
      hids.nodup_iff.mpr hfrozen.ids, hlength⟩
    · rintro rfl
      exact hfrozen.nonempty (List.length_eq_zero_iff.mp hlength.symm)
    · obtain ⟨allocation, hin, hsame⟩ := hfound delivered hmem
      obtain ⟨hid, hsafe, -⟩ := hfrozen.inBounds allocation hin
      obtain ⟨hnonneg, hle⟩ := hwithin delivered hmem allocation hin hsame
      have hlimit := (of_decide_eq_true hsafe).2
      refine ⟨by rw [← hsame, hid]; exact Bool.false_ne_true, decide_eq_true ⟨?_, ?_⟩, hnonneg⟩
      · rw [maxSafeInteger]
        omega
      · omega
    · obtain ⟨allocation, hin, hsame⟩ := hfound delivered hmem
      exact ⟨allocation, ⟨hin, hsame⟩, (hwithin delivered hmem allocation hin hsame).2⟩

/-- The totals of a package whose allocations are settled so. -/
def packageOf (settled : List (String × PartialCreditSettlement)) :
    PackagePartialCreditSettlement where
  allocations := settled
  reservedCredits := (settled.map (·.2.reservedCredits)).foldl addNumbers 0
  settledCredits := (settled.map (·.2.settledCredits)).foldl addNumbers 0
  refundCredits := (settled.map (·.2.refundCredits)).foldl addNumbers 0

/-- Under evidence, the units looked up are those the evidence gives. -/
theorem settledBy_iff (hevidenced : Evidenced allocations evidence)
    (hids : (evidence.map (·.allocationId)).Nodup)
    {allocation : ProductQuotePackageAllocation} (hmem : allocation ∈ allocations)
    {one : String × PartialCreditSettlement} :
    (∃ settlement, computePartialCreditSettlement allocation.creditCost
        allocation.failureRefundsCredits ⟨allocation.deliveryUnits,
          ((deliveredOf evidence).get? allocation.allocationId).getD 0⟩ = .ok settlement ∧
      (allocation.allocationId, settlement) = one) ↔ SettledBy evidence allocation one := by
  obtain ⟨delivered, hin, hsame⟩ := List.mem_map.mp
    (hevidenced.ids.symm.subset (List.mem_map.mpr ⟨allocation, hmem, rfl⟩))
  have hget := get?_deliveredOf hids hin
  rw [hsame] at hget
  rw [hget, Option.getD_some]
  constructor
  · rintro ⟨settlement, hsettled, rfl⟩
    exact ⟨rfl, delivered, hin, hsame, hsettled⟩
  · rintro ⟨hid, delivered', hin', hsame', hsettled⟩
    obtain rfl := List.inj_on_of_nodup_map hids hin hin' (hsame.trans hsame'.symm)
    exact ⟨one.2, hsettled, Prod.ext hid.symm rfl⟩

/-- **A package is settled exactly if it is frozen and evidenced**: each allocation by its own
units. -/
theorem computePackage_eq_ok {settlement : PackagePartialCreditSettlement} :
    computePackagePartialCreditSettlement allocations ⟨evidence⟩ = .ok settlement ↔
      FrozenPackage allocations ∧ Evidenced allocations evidence ∧
        ∃ settled, List.Forall₂ (SettledBy evidence) allocations settled ∧
          packageOf settled = settlement := by
  simp only [computePackagePartialCreditSettlement, guard_eq_ok, bind_eq_ok, pure_eq_ok,
    list_mapM_eq_ok, not_not, foldlM_freezeAllocation, foldlM_collectDelivered]
  constructor
  · rintro ⟨hbasis, hnonempty, _, ⟨hbounds, hids, rfl⟩, _, ⟨hfound, hnodup, rfl⟩, hsize, settled,
      hsettled, rfl⟩
    have hfrozen : FrozenPackage allocations := ⟨hnonempty, hbounds, hids⟩
    have hlength : evidence.length = allocations.length := by
      rw [entries_deliveredOf hnodup, List.length_map, frozenOf,
        OrderedMap.entries_setAll_empty (by rwa [List.map_map]), List.length_map] at hsize
      exact hsize
    have hevidenced := (evidenced_iff hfrozen).mp ⟨hbasis, hfound, hnodup, hlength⟩
    refine ⟨hfrozen, hevidenced, settled, ?_, rfl⟩
    refine ((List.forall₂_and_left _ _).mpr ⟨fun _ hmem => hmem, hsettled⟩).imp ?_
    exact fun allocation one h => (settledBy_iff hevidenced hnodup h.1).mp h.2
  · rintro ⟨hfrozen, hevidenced, settled, hsettled, rfl⟩
    obtain ⟨hbasis, hfound, hnodup, hlength⟩ := (evidenced_iff hfrozen).mpr hevidenced
    refine ⟨hbasis, hfrozen.nonempty, _, ⟨hfrozen.inBounds, hfrozen.ids, rfl⟩, _,
      ⟨hfound, hnodup, rfl⟩, ?_, settled, ?_, rfl⟩
    · rw [entries_deliveredOf hnodup, List.length_map, frozenOf,
        OrderedMap.entries_setAll_empty (by rw [List.map_map]; exact hfrozen.ids), List.length_map]
      exact hlength
    · refine ((List.forall₂_and_left _ _).mpr ⟨fun _ hmem => hmem, hsettled⟩).imp ?_
      exact fun allocation one h => (settledBy_iff hevidenced hnodup h.1).mpr h.2

/-- Under evidence, every allocation is settled. -/
theorem exists_settledBy (hfrozen : FrozenPackage allocations)
    (hevidenced : Evidenced allocations evidence) :
    ∀ allocation ∈ allocations, ∃ one, SettledBy evidence allocation one := by
  intro allocation hmem
  obtain ⟨delivered, hin, hsame⟩ := List.mem_map.mp
    (hevidenced.ids.symm.subset (List.mem_map.mpr ⟨allocation, hmem, rfl⟩))
  obtain ⟨-, hsafe, hunits, hcredits⟩ := hfrozen.inBounds allocation hmem
  obtain ⟨hnonneg, hle⟩ := hevidenced.within delivered hin allocation hmem hsame.symm
  have hlimit := (of_decide_eq_true hsafe).2
  have hbasis :
      isPartialDeliveryBasis ⟨allocation.deliveryUnits, delivered.deliveredUnits⟩ = true := by
    refine decide_eq_true ⟨hsafe, decide_eq_true ⟨?_, hle.trans hlimit⟩, hunits, hnonneg, hle⟩
    exact (neg_nonpos.mpr (by decide)).trans hnonneg
  obtain ⟨settlement, hsettled⟩ := ((reservationSettled _ _ _).accepts _).mpr ⟨hbasis, hcredits⟩
  exact ⟨(allocation.allocationId, settlement), rfl, delivered, hin, hsame, hsettled⟩

theorem exists_forall₂_settledBy : ∀ {allocations : List ProductQuotePackageAllocation},
    (∀ allocation ∈ allocations, ∃ one, SettledBy evidence allocation one) →
      ∃ settled, List.Forall₂ (SettledBy evidence) allocations settled
  | [], _ => ⟨[], .nil⟩
  | allocation :: allocations, h => by
    obtain ⟨⟨one, hone⟩, hrest⟩ := List.forall_mem_cons.mp h
    obtain ⟨settled, hsettled⟩ := exists_forall₂_settledBy hrest
    exact ⟨one :: settled, .cons hone hsettled⟩

/-- The settlements of a package split its credits, one by one. -/
theorem splits_of_settledBy {settled : List (String × PartialCreditSettlement)}
    (h : List.Forall₂ (SettledBy evidence) allocations settled) :
    settled.map (·.2.reservedCredits) = allocations.map (·.creditCost) ∧
      List.Forall₂ (fun cost one => Splits cost one.2.settledCredits one.2.refundCredits)
        (allocations.map (·.creditCost)) settled := by
  induction h with
  | nil => exact ⟨rfl, .nil⟩
  | cons hhead _ ih =>
    obtain ⟨-, delivered, -, -, hsettled⟩ := hhead
    obtain ⟨hreserved, hsplits⟩ := computePartialCreditSettlement_eq_ok hsettled
    exact ⟨congrArg₂ List.cons hreserved ih.1, .cons hsplits ih.2⟩

/-- **A total is exact** while the credits add up to a safe integer. -/
theorem totals_packageOf {settled : List (String × PartialCreditSettlement)}
    (h : List.Forall₂ (SettledBy evidence) allocations settled)
    (hsafe : (allocations.map (·.creditCost)).sum ≤ maxSafeInteger) :
    (packageOf settled).reservedCredits = (settled.map (·.2.reservedCredits)).sum ∧
      (packageOf settled).settledCredits = (settled.map (·.2.settledCredits)).sum ∧
        (packageOf settled).refundCredits = (settled.map (·.2.refundCredits)).sum := by
  obtain ⟨hreserved, heach⟩ := splits_of_settledBy h
  obtain ⟨hcosts, hkept, hback⟩ := nonneg_of_splits heach
  have hsplits := splits_sum heach
  have hsum := hsplits.sum
  have hnonneg := hsplits.settled_nonneg
  have hnonneg' := hsplits.refunded_nonneg
  rw [← hreserved] at hcosts
  rw [maxSafeInteger] at hsafe
  have hlt : (settled.map (·.2.reservedCredits)).sum < 2 ^ 53 := by
    rw [hreserved]
    omega
  refine ⟨?_, ?_, ?_⟩
  · exact (foldl_addNumbers hcosts (le_refl 0) (by omega)).trans (zero_add _)
  · exact (foldl_addNumbers hkept (le_refl 0) (by omega)).trans (zero_add _)
  · exact (foldl_addNumbers hback (le_refl 0) (by omega)).trans (zero_add _)

theorem settledBy_perm {evidence' : List DeliveredAllocation} (h : evidence.Perm evidence') :
    SettledBy evidence = SettledBy evidence' := by
  ext allocation one
  simp only [SettledBy, h.mem_iff]

theorem Evidenced.perm {evidence' : List DeliveredAllocation} (h : evidence.Perm evidence')
    (hevidenced : Evidenced allocations evidence) : Evidenced allocations evidence' where
  ids := (h.symm.map _).trans hevidenced.ids
  within delivered hmem := hevidenced.within delivered (h.mem_iff.mpr hmem)

theorem packageSettled (allocations : List ProductQuotePackageAllocation) :
    PackageSettled allocations where
  accepts evidence := by
    constructor
    · rintro ⟨settlement, h⟩
      obtain ⟨hfrozen, hevidenced, -⟩ := computePackage_eq_ok.mp h
      exact ⟨hfrozen, hevidenced⟩
    · rintro ⟨hfrozen, hevidenced⟩
      obtain ⟨settled, hsettled⟩ := exists_forall₂_settledBy (exists_settledBy hfrozen hevidenced)
      exact ⟨_, computePackage_eq_ok.mpr ⟨hfrozen, hevidenced, settled, hsettled, rfl⟩⟩
  each evidence settlement h := by
    obtain ⟨-, -, settled, hsettled, rfl⟩ := computePackage_eq_ok.mp h
    exact hsettled
  totals evidence settlement hsafe h := by
    obtain ⟨-, -, settled, hsettled, rfl⟩ := computePackage_eq_ok.mp h
    exact totals_packageOf hsettled hsafe
  anyOrder evidence evidence' hperm settlement := by
    have hevidenced : Evidenced allocations evidence ↔ Evidenced allocations evidence' :=
      ⟨Evidenced.perm hperm, Evidenced.perm hperm.symm⟩
    rw [computePackage_eq_ok, computePackage_eq_ok, hevidenced, settledBy_perm hperm]

/-- **Deliveries are settled exactly**: one reservation within its bounds and more for more units, a
package by the sum of its allocations. -/
theorem deliveriesSettled : (∀ reserved policy total, ReservationSettled reserved policy total) ∧
    ∀ allocations, PackageSettled allocations := ⟨reservationSettled, packageSettled⟩

/-- An allocation of the most credits there can be. -/
def largestAllocation (id : String) : ProductQuotePackageAllocation where
  allocationId := id
  carrier := .note
  deliveryUnits := 1
  creditCost := maxSafeInteger
  failureRefundsCredits := true
  operation := "note"
  catalogModel := ⟨"model", "1"⟩
  routeSnapshotRef := "route"
  rightsRevisionRefs := []

/-- A model that refunds nothing settles all of it for nothing delivered; three allocations of
`2 ^ 53 - 1` credits do not add up. -/
theorem not_deliveriesSettled :
    (¬ ∀ reserved policy total settlement,
      computePartialCreditSettlement reserved policy ⟨total, 0⟩ = .ok settlement →
        settlement.settledCredits = 0) ∧
    ¬ ∀ allocations evidence settlement,
      computePackagePartialCreditSettlement allocations ⟨evidence⟩ = .ok settlement →
        settlement.settledCredits = (settlement.allocations.map (·.2.settledCredits)).sum := by
  refine ⟨fun h => ?_, fun h => ?_⟩
  · exact absurd (h 10 false 2 _ (computePartial_eq_ok.mpr ⟨by decide, rfl⟩)) (by decide)
  · have hwrong : ((computePackagePartialCreditSettlement (["a", "b", "c"].map largestAllocation)
        ⟨["a", "b", "c"].map fun id => ⟨id, 1⟩⟩).toOption.map fun settlement =>
          decide (settlement.settledCredits =
            (settlement.allocations.map (·.2.settledCredits)).sum)) = some false := by
      decide +kernel
    rcases hrun : computePackagePartialCreditSettlement (["a", "b", "c"].map largestAllocation)
        ⟨["a", "b", "c"].map fun id => ⟨id, 1⟩⟩ with e | settlement
    · rw [hrun] at hwrong
      exact nomatch hwrong
    · rw [hrun] at hwrong
      exact absurd (h _ _ _ hrun) (of_decide_eq_false (Option.some.inj hwrong))

end MeiyeAgent
