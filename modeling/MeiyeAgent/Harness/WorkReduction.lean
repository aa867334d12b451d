import MeiyeAgent.Harness.CarrierSettlements
import MeiyeAgent.Harness.SettlementKeys

/-!
# Harness/WorkReduction — what receipts add up to

* `reduce_eq_ok` — receipts that are reduced: one for each frozen carrier, of the same facts.
* `Delivers` — **the settlement of a package**: each of its allocations once, with the units its
  own receipt proves.
* `delivers_of_reduce` — what two or more receipts of a package are reduced to.
-/

namespace MeiyeAgent

open Effect

variable {expected : List String} {receipts : List CarrierReceiptRow}
  {aggregateKey : String} {ready : ReadyWorkSettlement}

/-! ## One receipt a carrier -/

/-- The carrier a receipt is for. -/
def CarrierReceiptRow.carrier (receipt : CarrierReceiptRow) : String :=
  (optionalOperation receipt.payload.billingIdentity.carrierUnitId).getD ""

/-- **The receipts by carrier are the receipts**, each of a frozen carrier and no two of one. -/
theorem collectByCarrier_eq_ok : ∀ {receipts : List CarrierReceiptRow}
    {byCarrier result : OrderedMap String CarrierReceiptRow},
    collectByCarrier expected receipts byCarrier = .ok result →
      result.values = byCarrier.values ++ receipts ∧
      (∀ receipt ∈ receipts, receipt.carrier ∈ expected) ∧
      (receipts.map (·.carrier)).Nodup ∧
      ∀ receipt ∈ receipts, byCarrier.get? receipt.carrier = none
  | [], byCarrier, result, h => by
    obtain rfl := pure_eq_ok.mp h
    exact ⟨(List.append_nil _).symm, fun _ h => absurd h List.not_mem_nil, List.nodup_nil,
      fun _ h => absurd h List.not_mem_nil⟩
  | receipt :: receipts, byCarrier, result, h => by
    rw [collectByCarrier] at h
    split at h
    · exact (throw_ne_ok.mp h).elim
    · next carrier hcarrier =>
      have hname : receipt.carrier = carrier := by rw [CarrierReceiptRow.carrier, hcarrier]; rfl
      split at h
      · exact (throw_ne_ok.mp h).elim
      · next hfree =>
        obtain ⟨hmem, hnone⟩ := not_or.mp hfree
        have hmem := not_not.mp hmem
        have hnone := Option.not_isSome_iff_eq_none.mp hnone
        obtain ⟨hvalues, hall, hnodup, hlater⟩ := collectByCarrier_eq_ok h
        have hset : (byCarrier.set carrier receipt).values = byCarrier.values ++ [receipt] := by
          rw [OrderedMap.values, OrderedMap.entries_set_of_none hnone, List.map_append]
          rfl
        refine ⟨by rw [hvalues, hset, List.append_assoc]; rfl, ?_, ?_, ?_⟩
        · exact List.forall_mem_cons.mpr ⟨hname ▸ hmem, hall⟩
        · rw [List.map_cons, List.nodup_cons, hname]
          refine ⟨fun hdup => ?_, hnodup⟩
          obtain ⟨other, hother, heq⟩ := List.mem_map.mp hdup
          have hread := hlater other hother
          rw [heq, OrderedMap.get?_set_self] at hread
          cases hread
        · refine List.forall_mem_cons.mpr ⟨hname ▸ hnone, fun other hother => ?_⟩
          have hread := hlater other hother
          rw [OrderedMap.get?_set] at hread
          split at hread
          · cases hread
          · exact hread

/-- **Receipts that are reduced**: one for each carrier, each with the facts of the first. -/
theorem reduce_eq_ok
    (h : reduceCarrierReceiptsForWork aggregateKey expected receipts = .ok (some ready)) :
    receipts.length = expected.length ∧ (receipts.map (·.carrier)).Nodup ∧
      (∀ receipt ∈ receipts, receipt.carrier ∈ expected) ∧
      ∃ first rest, receipts = first :: rest ∧
        (∀ receipt ∈ receipts, assertCombinable expected first.payload receipt.payload = .ok ()) ∧
        reduceCombined aggregateKey expected.length receipts first = .ok (some ready) := by
  rw [reduceCarrierReceiptsForWork] at h
  split at h
  · exact nomatch pure_eq_ok.mp h
  · next hlength =>
    obtain ⟨byCarrier, hcollect, h⟩ := bind_eq_ok.mp h
    obtain ⟨hvalues, hmem, hnodup, -⟩ := collectByCarrier_eq_ok hcollect
    have hvalues : byCarrier.values = receipts := hvalues
    split at h
    · exact nomatch pure_eq_ok.mp h
    · refine ⟨not_not.mp hlength, hnodup, hmem, ?_⟩
      rw [hvalues] at h
      cases receipts with
      | nil => exact nomatch pure_eq_ok.mp h
      | cons first rest =>
        obtain ⟨units, hall, hcombined⟩ := bind_eq_ok.mp h
        refine ⟨first, rest, rfl, fun receipt hreceipt => ?_, hcombined⟩
        obtain ⟨⟨⟩, hcombinable⟩ := ok_of_mapM_eq_ok hall receipt hreceipt
        exact hcombinable

/-! ## Packages -/

/-- A mapping that keeps a reading of its elements. -/
theorem map_of_mapM_eq_some {α β γ : Type} {f : α → Option β} {g : α → γ} {g' : β → γ}
    (hf : ∀ a b, f a = some b → g' b = g a) : ∀ {l : List α} {r : List β},
      l.mapM f = some r → r.map g' = l.map g
  | [], r, h => by
    rw [List.mapM_nil, Option.pure_def, Option.some.injEq] at h
    rw [← h]
    rfl
  | a :: l, r, h => by
    simp only [List.mapM_cons, Option.bind_eq_bind, Option.bind_eq_some_iff, Option.pure_def,
      Option.some.injEq] at h
    obtain ⟨b, hb, bs, hbs, rfl⟩ := h
    rw [List.map_cons, List.map_cons, hf a b hb, map_of_mapM_eq_some hf hbs]

variable {allocation : ExecutionPlanPackageBillingAllocation}

theorem parseAllocation_id {parsed : ExecutionPlanPackageBillingAllocation}
    (h : parseAllocation allocation = some parsed) :
    parsed.allocationId = Text.trim allocation.allocationId := by
  rw [parseAllocation] at h
  simp only [Option.bind_eq_bind, Option.bind_eq_some_iff, Option.pure_def,
    Option.some.injEq] at h
  obtain ⟨_, -, _, hid, _, -, _, -, _, -, _, -, _, -, _, -, _, -, _, -, rfl⟩ := h
  exact (parseText_eq_some hid).1

variable {packageBilling : ExecutionPlanPackageBilling}

/-- **What a checked package says of a carrier's allocation.** -/
theorem allocation_of_carrier {carrier : String} {units : List String} {billable : Option Int}
    (h : assertPackageBillingForCarrier packageBilling carrier units billable = .ok allocation) :
    (packageBilling.allocations.map (·.allocationId)).Nodup ∧
      allocation.carrierUnitId = carrier := by
  rw [assertPackageBillingForCarrier] at h
  split at h
  · exact (throw_ne_ok.mp h).elim
  · next parsed hparsed =>
    rw [parsePackageBilling] at hparsed
    simp only [Option.bind_eq_bind, Option.bind_eq_some_iff, Option.pure_def, Option.guard_eq_some',
      exists_const, Option.some.injEq] at hparsed
    obtain ⟨contractHash, hhash, allocations, hallocations, -, hids, -, rfl⟩ := hparsed
    have htrimmed : allocations.map (·.allocationId) =
        packageBilling.allocations.map fun a => Text.trim a.allocationId :=
      map_of_mapM_eq_some (fun _ _ => parseAllocation_id) hallocations
    rw [htrimmed, ← Function.comp_def, ← List.map_map] at hids
    dsimp only at h
    split at h
    · next found hfound =>
      obtain ⟨hfind, -⟩ := Option.filter_eq_some_iff.mp hfound
      obtain rfl := pure_eq_ok.mp h
      exact ⟨hids.of_map _, by simpa using List.find?_some hfind⟩
    · exact (throw_ne_ok.mp h).elim

/-- A package's identity whose carrier has an allocation. -/
theorem allocation_of_identity {identity : BillingIdentity}
    (hpackage : identity.packageBilling = some packageBilling)
    (h : identity.billingPackageAllocation = .ok (some allocation)) :
    (packageBilling.allocations.map (·.allocationId)).Nodup ∧
      optionalOperation identity.carrierUnitId = some allocation.carrierUnitId := by
  rw [BillingIdentity.billingPackageAllocation, hpackage] at h
  simp only at h
  split at h
  · next carrier units hcarrier hunits =>
    obtain ⟨found, hfound, heq⟩ := map_eq_ok.mp h
    obtain rfl := Option.some.inj heq
    obtain ⟨hnodup, hname⟩ := allocation_of_carrier hfound
    exact ⟨hnodup, hname ▸ hcarrier⟩
  · exact (throw_ne_ok.mp h).elim

/-- **The receipt proves the units of the allocation**: it is for its carrier. -/
structure Proves (receipt : CarrierReceiptRow) (allocationId : String) (units : Int) : Prop where
  intro ::
  evidence : ∃ allocation, receipt.payload.billingIdentity.billingPackageAllocation =
    .ok (some allocation) ∧ allocation.carrierUnitId = receipt.carrier ∧
      allocation.allocationId = allocationId ∧ units = receiptUnits receipt allocation

theorem receiptAllocation_eq_ok {frozenAllocationIds : List String} {receipt : CarrierReceiptRow}
    (h : receiptAllocation frozenAllocationIds receipt = .ok allocation) :
    receipt.payload.billingIdentity.billingPackageAllocation = .ok (some allocation) := by
  rw [receiptAllocation, guard_eq_ok, bind_eq_ok] at h
  obtain ⟨-, found, hfound, h⟩ := h
  split at h
  · exact (throw_ne_ok.mp h).elim
  · split at h
    · exact (throw_ne_ok.mp h).elim
    · exact pure_eq_ok.mp h ▸ hfound

theorem proves_of_allocation {frozenAllocationIds : List String} {receipt : CarrierReceiptRow}
    (h : receiptAllocation frozenAllocationIds receipt = .ok allocation) :
    Proves receipt allocation.allocationId (receiptUnits receipt allocation) := by
  have hallocation := receiptAllocation_eq_ok h
  cases hpackage : receipt.payload.billingIdentity.packageBilling with
  | none =>
    rw [BillingIdentity.billingPackageAllocation, hpackage] at hallocation
    cases pure_eq_ok.mp hallocation
  | some packageBilling =>
    have hcarrier := (allocation_of_identity hpackage hallocation).2
    exact ⟨allocation, hallocation, by rw [CarrierReceiptRow.carrier, hcarrier]; rfl, rfl, rfl⟩

/-- **The units collected are those the receipts prove.** -/
theorem collectDeliveredUnits_eq_ok {frozenAllocationIds : List String} :
    ∀ {receipts : List CarrierReceiptRow} {delivered result : OrderedMap String Int},
      collectDeliveredUnits frozenAllocationIds receipts delivered = .ok result →
        ∀ e ∈ result.entries, e ∈ delivered.entries ∨ ∃ receipt ∈ receipts, Proves receipt e.1 e.2
  | [], delivered, result, h => by
    obtain rfl := pure_eq_ok.mp h
    exact fun e he => .inl he
  | receipt :: receipts, delivered, result, h => by
    rw [collectDeliveredUnits] at h
    obtain ⟨allocation, hallocation, h⟩ := bind_eq_ok.mp h
    obtain ⟨-, h⟩ := guard_eq_ok.mp h
    obtain ⟨⟨⟩, -, h⟩ := bind_eq_ok.mp h
    intro e he
    rcases collectDeliveredUnits_eq_ok h e he with hset | ⟨later, hlater, hproves⟩
    · rcases OrderedMap.mem_set.mp hset with rfl | ⟨hold, -⟩
      · exact .inr ⟨receipt, List.mem_cons_self, proves_of_allocation hallocation⟩
      · exact .inl hold
    · exact .inr ⟨later, List.mem_cons_of_mem _ hlater, hproves⟩

/-- **The settlement of a package**: each allocation once, with the units its own receipt proves,
and a commit exactly when something was delivered. -/
structure Delivers (packageBilling : ExecutionPlanPackageBilling)
    (receipts : List CarrierReceiptRow) (action : CarrierTerminalAction)
    (listed : List DeliveredAllocation) : Prop where
  ids : listed.map (·.allocationId) = packageBilling.allocations.map (·.allocationId)
  once : (listed.map (·.allocationId)).Nodup
  units : ∀ entry ∈ listed, ∃ receipt ∈ receipts,
    Proves receipt entry.allocationId entry.deliveredUnits
  action : action = .commit ↔ ∃ entry ∈ listed, 0 < entry.deliveredUnits

variable {listed : List DeliveredAllocation}

theorem packageAction_eq_commit :
    packageAction listed = .commit ↔ ∃ entry ∈ listed, 0 < entry.deliveredUnits := by
  rw [packageAction]
  split <;> simp_all

variable {delivered : OrderedMap String Int}

theorem deliveredAllocation_eq_ok {entry : DeliveredAllocation}
    (h : deliveredAllocation delivered allocation = .ok entry) :
    entry.allocationId = allocation.allocationId ∧
      delivered.get? entry.allocationId = some entry.deliveredUnits := by
  rw [deliveredAllocation] at h
  split at h
  · exact (throw_ne_ok.mp h).elim
  · next units hunits =>
    obtain rfl := pure_eq_ok.mp h
    exact ⟨rfl, hunits⟩

/-- The allocations as they are listed, and where their units come from. -/
theorem listed_of_forall₂ {allocations : List ExecutionPlanPackageBillingAllocation}
    (h : List.Forall₂ (fun allocation entry => deliveredAllocation delivered allocation = .ok entry)
      allocations listed) : listed.map (·.allocationId) = allocations.map (·.allocationId) ∧
      ∀ entry ∈ listed, delivered.get? entry.allocationId = some entry.deliveredUnits := by
  induction h with
  | nil => exact ⟨rfl, fun _ h => absurd h List.not_mem_nil⟩
  | cons hentry _ ih =>
    obtain ⟨hid, hread⟩ := deliveredAllocation_eq_ok hentry
    exact ⟨by rw [List.map_cons, List.map_cons, hid, ih.1], List.forall_mem_cons.mpr ⟨hread, ih.2⟩⟩

/-- **What the receipts of a package are reduced to.** -/
theorem reducePackage_eq_ok {canonical : HarnessBillingSettlementInput}
    (h : reducePackageCarrierReceiptsForWork aggregateKey receipts canonical = .ok ready) :
    ∃ packageBilling delivered listed,
      canonical.billingIdentity.packageBilling = some packageBilling ∧
      collectDeliveredUnits (packageBilling.allocations.map (·.allocationId)) receipts .empty =
        .ok delivered ∧
      packageBilling.allocations.mapM (deliveredAllocation delivered) = .ok listed ∧
      ready.aggregateKey = aggregateKey ∧ ready.action = packageAction listed ∧
      ready.settlement.billingIdentity = canonical.billingIdentity ∧
      ready.settlement.workspaceId = canonical.workspaceId ∧
      ready.settlement.packagePartialDelivery = some ⟨listed⟩ := by
  rw [reducePackageCarrierReceiptsForWork] at h
  split at h
  · exact (throw_ne_ok.mp h).elim
  · next packageBilling hpackage =>
    obtain ⟨delivered, hdelivered, h⟩ := bind_eq_ok.mp h
    obtain ⟨-, h⟩ := guard_eq_ok.mp h
    obtain ⟨listed, hlisted, h⟩ := bind_eq_ok.mp h
    obtain rfl := pure_eq_ok.mp h
    exact ⟨packageBilling, delivered, listed, hpackage, hdelivered, hlisted, rfl, rfl, rfl, rfl, rfl⟩

theorem delivers_of_collected (hnodup : (packageBilling.allocations.map (·.allocationId)).Nodup)
    (hdelivered : collectDeliveredUnits (packageBilling.allocations.map (·.allocationId)) receipts
      .empty = .ok delivered)
    (hlisted : packageBilling.allocations.mapM (deliveredAllocation delivered) = .ok listed) :
    Delivers packageBilling receipts (packageAction listed) listed := by
  obtain ⟨hids, hread⟩ := listed_of_forall₂ (list_mapM_eq_ok.mp hlisted)
  refine ⟨hids, hids ▸ hnodup, fun entry hentry => ?_, packageAction_eq_commit⟩
  have hmem := OrderedMap.get?_eq_some.mp (hread entry hentry)
  rcases collectDeliveredUnits_eq_ok hdelivered _ hmem with hempty | hproves
  · exact absurd hempty List.not_mem_nil
  · exact hproves

/-- A receipt with the facts of the first has its carriers and its package. -/
theorem assertCombinable_eq_ok {canonical settlement : HarnessBillingSettlementInput}
    (h : assertCombinable expected canonical settlement = .ok ()) :
    settlement.billingIdentity.frozenCarrierUnits = .ok expected ∧
      settlement.billingIdentity.packageBilling = canonical.billingIdentity.packageBilling ∧
      settlement.workspaceId = canonical.workspaceId := by
  rw [assertCombinable, guard_eq_ok, not_or] at h
  obtain ⟨⟨hworkspace, -⟩, h⟩ := h
  obtain ⟨fingerprint, -, h⟩ := bind_eq_ok.mp h
  obtain ⟨canonicalFingerprint, -, h⟩ := bind_eq_ok.mp h
  obtain ⟨-, h⟩ := guard_eq_ok.mp h
  obtain ⟨units, hunits, h⟩ := bind_eq_ok.mp h
  obtain ⟨heq, hpackage⟩ := not_or.mp (last_guard_eq_ok.mp h)
  exact ⟨not_not.mp heq ▸ hunits, not_not.mp hpackage, not_not.mp hworkspace⟩

/-- **What two receipts or more of a package are reduced to.** -/
theorem delivers_of_reduce
    (h : reduceCarrierReceiptsForWork aggregateKey expected receipts = .ok (some ready))
    (hpackage : ready.settlement.billingIdentity.packageBilling = some packageBilling)
    (htwo : 2 ≤ expected.length) :
    ∃ listed, ready.settlement.packagePartialDelivery = some ⟨listed⟩ ∧
      Delivers packageBilling receipts ready.action listed := by
  obtain ⟨-, -, -, first, rest, rfl, -, hcombined⟩ := reduce_eq_ok h
  rw [reduceCombined, guard_eq_ok, if_neg (by omega), guard_eq_ok] at hcombined
  obtain ⟨-, -, hcombined⟩ := hcombined
  obtain ⟨_, hreduce, heq⟩ := map_eq_ok.mp hcombined
  obtain rfl := Option.some.inj heq
  obtain ⟨package, delivered, listed, hcanonical, hdelivered, hlisted, -, haction, hidentity, -,
    hlist⟩ := reducePackage_eq_ok hreduce
  obtain rfl : package = packageBilling :=
    Option.some.inj (hcanonical.symm.trans (hidentity ▸ hpackage))
  obtain ⟨allocation, hallocation, -⟩ := bind_eq_ok.mp hdelivered
  have hnodup := (allocation_of_identity hcanonical (receiptAllocation_eq_ok hallocation)).1
  exact ⟨listed, hlist, haction ▸ delivers_of_collected hnodup hdelivered hlisted⟩

/-- Whatever is reduced is the work's, under its key. -/
theorem ready_of_reduce
    (h : reduceCarrierReceiptsForWork aggregateKey expected receipts = .ok (some ready)) :
    ready.aggregateKey = aggregateKey ∧ ∃ receipt ∈ receipts,
      ready.settlement.workspaceId = receipt.payload.workspaceId ∧
      ready.settlement.billingIdentity = receipt.payload.billingIdentity ∧
      receipt.payload.billingIdentity.frozenCarrierUnits = .ok expected := by
  obtain ⟨-, -, -, first, rest, rfl, hall, hcombined⟩ := reduce_eq_ok h
  have hunits := (assertCombinable_eq_ok (hall first List.mem_cons_self)).1
  rw [reduceCombined, guard_eq_ok] at hcombined
  obtain ⟨-, hcombined⟩ := hcombined
  split at hcombined
  · obtain rfl := Option.some.inj (pure_eq_ok.mp hcombined)
    exact ⟨rfl, first, List.mem_cons_self, rfl, rfl, hunits⟩
  · obtain ⟨-, hcombined⟩ := guard_eq_ok.mp hcombined
    obtain ⟨_, hreduce, heq⟩ := map_eq_ok.mp hcombined
    obtain rfl := Option.some.inj heq
    obtain ⟨-, -, -, -, -, -, hkey, -, hidentity, hworkspace, -⟩ := reducePackage_eq_ok hreduce
    exact ⟨hkey, first, List.mem_cons_self, hworkspace, hidentity, hunits⟩

end MeiyeAgent
