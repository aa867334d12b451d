import MeiyeAgent.Foundation.GrantLots

/-!
# Foundation/LegacyBalances — the migration of a legacy balance keeps it

A migration leaves the mirrored lots with the legacy balance, unless the lot that was to make up
the difference is in the ledger already; done once it is not done again, and one that throws leaves
the ledger as it was.

* `GrantLotWrite`, `lotKeyed_run` — what a call writes, and that the lots keep keys of their own.
* `migrateLegacyBalance_spec` — one migration.
* `legacyMigrated_run` — the migration in every reachable ledger.
-/

namespace MeiyeAgent

open Effect Table Greedy Text Relation MemoryGrantLotLedger

/-! ## What a call writes -/

/-- The key of a lot. -/
def GrantLot.key (lot : GrantLot) : String × String := (lot.workspaceId, lot.id)

/-- **A write**: to a lot that keeps its key, of a transaction, of a lot of a new key, or of a
migration's mark. -/
inductive GrantLotWrite (s : MemoryGrantLotLedger) : MemoryGrantLotLedger → Prop
  | amend (workspaceId id : String) (change : GrantLot → GrantLot)
      (hkey : ∀ lot, (change lot).key = lot.key) : GrantLotWrite s (s.amend workspaceId id change)
  | push (t : GrantLotTransaction) : GrantLotWrite s (s.push t)
  | opened (lot : GrantLot) (hnew : ∀ other ∈ s.lots, other.key ≠ lot.key) :
      GrantLotWrite s { s with lots := s.lots ++ [lot] }
  | marked (migrations : List String) :
      GrantLotWrite s { s with legacyBalanceMigrations := migrations }

/-- **The lots of a workspace have ids of their own.** -/
def LotKeyed (s : MemoryGrantLotLedger) : Prop := (s.lots.map (·.key)).Nodup

theorem GrantLotWrite.lotKeyed {s s' : MemoryGrantLotLedger} (hwrite : GrantLotWrite s s')
    (h : LotKeyed s) : LotKeyed s' := by
  cases hwrite with
  | amend workspaceId id change hkey =>
    rw [LotKeyed, MemoryGrantLotLedger.amend, map_updateFirst _ hkey]
    exact h
  | push t => exact h
  | opened lot hnew =>
    rw [LotKeyed, List.map_append, List.map_singleton]
    refine List.nodup_append.mpr ⟨h, List.nodup_singleton _, ?_⟩
    rintro key hkey _ hsame rfl
    obtain ⟨other, hother, rfl⟩ := List.mem_map.mp hkey
    exact hnew other hother (List.mem_singleton.mp hsame)
  | marked migrations => exact h

section Writes

variable {host : Host} {s : MemoryGrantLotLedger}

theorem writes_markLegacyBalanceMigrated (workspaceId : String) (resource : GrantLotResource)
    (completedAt : String) :
    Writes GrantLotWrite (markLegacyBalanceMigrated host workspaceId resource completedAt) s := by
  refine Writes.bind (Writes.check _) fun _ s' => ?_
  rw [writes_iff, wp_modify]
  exact .single (.marked _)

theorem findLot_none {workspaceId id : String} (h : s.findLot workspaceId id = none) :
    ∀ other ∈ s.lots, other.key ≠ (workspaceId, id) := by
  intro other hother hkey
  have hnot := List.find?_eq_none.mp h other hother
  rw [GrantLot.key, Prod.mk.injEq] at hkey
  exact hnot (by simp [GrantLot.isLot, hkey.1, hkey.2])

theorem existingGrant_eq_none {input : GrantLotGrantInput} {grantKey : String} :
    s.existingGrant input grantKey = none ↔
      (∀ lot ∈ s.lots, lot.workspaceId = input.workspaceId →
        lot.grantIdempotencyKey ≠ some grantKey) ∧ s.findLot input.workspaceId input.id = none := by
  simp [MemoryGrantLotLedger.existingGrant]

theorem writes_grantLot (input : GrantLotGrantInput) :
    Writes GrantLotWrite (grantLot host input) s := by
  refine Writes.bind (Writes.check _) fun _ s => Writes.bind (Writes.check _) fun grantKey s => ?_
  refine writes_get_bind ?_
  split
  · exact Writes.ite (Writes.pure _) (Writes.throw _)
  · next hnone =>
    have hid := (existingGrant_eq_none.mp hnone).2
    exact writes_set_bind (.tail (.single (.opened (openedGrantLot input grantKey)
      (findLot_none hid))) (.push _)) (Writes.pure _)

theorem writes_rebuildEach : ∀ (usageDebt : Int) (lots : List GrantLot) {s : MemoryGrantLotLedger},
    Writes GrantLotWrite (rebuildEach usageDebt lots) s
  | _, [], _ => Writes.pure _
  | _, _ :: lots, _ =>
    Writes.ite (writes_modify_bind (fun _ => .amend _ _ _ fun _ => rfl) fun _ =>
      writes_rebuildEach _ lots) (writes_rebuildEach _ lots)

theorem writes_rebuildCohorts (transactions : List GrantLotTransaction) :
    ∀ (cohorts : List (List GrantLot)) {s : MemoryGrantLotLedger},
      Writes GrantLotWrite (rebuildCohorts host transactions cohorts) s
  | [], _ => Writes.pure _
  | _ :: cohorts, _ => Writes.bind (writes_rebuildEach _ _) fun _ _ =>
      writes_rebuildCohorts transactions cohorts

theorem writes_rebuildWorkspaceRemaining (workspaceId : String) :
    Writes GrantLotWrite (rebuildWorkspaceRemaining host workspaceId) s :=
  writes_get_bind (writes_rebuildCohorts _ _)

theorem writes_expireGrantLotsEach (input : GrantLotExpiryInput) :
    ∀ (lots : List GrantLot) {s : MemoryGrantLotLedger},
      Writes GrantLotWrite (expireGrantLotsEach input lots) s
  | [], _ => Writes.pure _
  | _ :: lots, _ => writes_modify_bind (fun _ => .amend _ _ _ fun _ => rfl) fun _ =>
      Writes.ite (writes_expireGrantLotsEach input lots)
        (writes_modify_bind (fun _ => .push _) fun _ =>
          Writes.bind (writes_expireGrantLotsEach input lots) fun _ _ => Writes.pure _)

theorem writes_expireGrantLots (input : GrantLotExpiryInput) :
    Writes GrantLotWrite (expireGrantLots host input) s :=
  Writes.bind (Writes.check _) fun _ _ => writes_get_bind (writes_expireGrantLotsEach _ _)

theorem writes_chargeGrantLots (workspaceId : String)
    (usage : Nat → String × Int → GrantLotTransaction) :
    ∀ (index : Nat) (allocations : List (String × Int)) {s : MemoryGrantLotLedger},
      Writes GrantLotWrite (chargeGrantLots workspaceId usage index allocations) s
  | _, [], _ => Writes.pure _
  | index, allocation :: allocations, s => by
    refine writes_get_bind ?_
    split
    · exact writes_chargeGrantLots workspaceId usage (index + 1) allocations
    · refine writes_set_bind (.tail (.single (.amend workspaceId allocation.1
        (·.charged allocation.2) fun _ => rfl)) (.push (usage index allocation))) ?_
      exact Writes.bind (writes_chargeGrantLots workspaceId usage (index + 1) allocations)
        fun _ _ => Writes.pure _

theorem writes_consumeGrantLots (input : GrantLotConsumeInput) :
    Writes GrantLotWrite (consumeGrantLots host input) s := by
  refine Writes.bind (Writes.check _) fun _ s => Writes.bind (Writes.check _) fun _ s => ?_
  refine Writes.bind (Writes.check _) fun consumeKey s => writes_get_bind ?_
  refine Writes.bind (Writes.check _) fun _ s => Writes.ite (Writes.ite (Writes.throw _)
    (Writes.pure _)) ?_
  refine Writes.bind (writes_expireGrantLots _) fun _ s => writes_get_bind ?_
  exact Writes.ite (Writes.throw _) (writes_chargeGrantLots _ _ _ _)

theorem writes_refundGrantLotUsage (input : GrantLotRefundInput) :
    Writes GrantLotWrite (refundGrantLotUsage host input) s := by
  refine Writes.bind (Writes.check _) fun _ s => writes_get_bind ?_
  split
  · exact Writes.pure _
  · exact Writes.pure _
  · refine Writes.ite (Writes.pure _) (writes_check_bind fun _ _ => writes_check_bind fun _ _ => ?_)
    refine writes_set_bind (.single (.push _)) ?_
    exact Writes.bind (writes_rebuildWorkspaceRemaining _) fun _ _ =>
      Writes.bind (writes_expireGrantLots _) fun _ _ => Writes.pure _

theorem writes_refundGrantLotEach (input : GrantLotRefundOperationInput) :
    ∀ (remaining : Option Int) (index : Nat) (usages : List GrantLotTransaction)
      {s : MemoryGrantLotLedger},
      Writes GrantLotWrite (refundGrantLotEach host input remaining index usages) s
  | _, _, [], _ => Writes.pure _
  | _, index, _ :: usages, _ =>
    Writes.ite (Writes.pure _) (Writes.bind (writes_refundGrantLotUsage _) fun _ _ =>
      Writes.bind (writes_refundGrantLotEach input _ (index + 1) usages) fun _ _ => Writes.pure _)

theorem writes_refundGrantLotOperation (input : GrantLotRefundOperationInput) :
    Writes GrantLotWrite (refundGrantLotOperation host input) s :=
  Writes.bind (Writes.check _) fun _ _ => writes_get_bind
    (Writes.bind (writes_refundGrantLotEach input _ _ _) fun _ _ =>
      Writes.ite (Writes.throw _) (Writes.pure _))

theorem writes_shortenGrantLots (input : GrantLotEntitlementReconciliationInput) :
    ∀ (lots : List GrantLot) {s : MemoryGrantLotLedger},
      Writes GrantLotWrite (shortenGrantLots host input lots) s
  | [], _ => Writes.pure _
  | _ :: lots, _ => writes_modify_bind (fun _ => .amend _ _ _ fun _ => by split <;> rfl) fun _ =>
      writes_shortenGrantLots input lots

theorem writes_reduceGrantLots (input : GrantLotEntitlementReconciliationInput) :
    ∀ (amountToReduce : Int) (written : Nat) (lots : List GrantLot) {s : MemoryGrantLotLedger},
      Writes GrantLotWrite (reduceGrantLots input amountToReduce written lots) s
  | _, _, [], _ => Writes.pure _
  | _, written, _ :: lots, _ =>
    Writes.ite (Writes.pure _) (writes_get_bind (writes_set_bind
      (.single (.amend _ _ _ fun _ => rfl)) (Writes.ite
        (writes_reduceGrantLots input _ written lots)
        (writes_modify_bind (fun _ => .push _) fun _ =>
          Writes.bind (writes_reduceGrantLots input _ (written + 1) lots) fun _ _ =>
            Writes.pure _))))

theorem writes_reconcileEntitlementLots (input : GrantLotEntitlementReconciliationInput) :
    Writes GrantLotWrite (reconcileEntitlementLots host input) s := by
  refine Writes.bind (Writes.check _) fun _ s => writes_get_bind ?_
  refine Writes.bind (writes_shortenGrantLots input _) fun _ s => writes_get_bind ?_
  refine Writes.ite (Writes.bind (writes_rebuildWorkspaceRemaining _) fun _ _ => Writes.pure _) ?_
  exact Writes.bind (writes_reduceGrantLots input _ _ _) fun _ _ =>
    Writes.bind (writes_rebuildWorkspaceRemaining _) fun _ _ => Writes.pure _

theorem writes_rebuildGrantLotProjection (input : GrantLotExpiryInput) :
    Writes GrantLotWrite (rebuildGrantLotProjection host input) s :=
  Writes.bind (Writes.check _) fun _ _ =>
    Writes.bind (writes_rebuildWorkspaceRemaining _) fun _ _ =>
      Writes.bind (writes_expireGrantLots _) fun _ _ => writes_get_bind (Writes.pure _)

end Writes

/-! ## The migration -/

section Migration

variable {host : Host} {s s' : MemoryGrantLotLedger} {input : LegacyGrantLotMigrationInput}

theorem writes_migrateBalance (input : LegacyGrantLotMigrationInput) :
    Writes GrantLotWrite (migrateBalance host input) s := by
  refine writes_get_bind (Writes.ite ?_ (Writes.ite ?_ ?_))
  · exact Writes.bind (writes_chargeGrantLots _ _ _ _) fun _ _ =>
      writes_markLegacyBalanceMigrated _ _ _
  · exact Writes.bind (writes_grantLot _) fun _ _ => writes_markLegacyBalanceMigrated _ _ _
  · exact writes_markLegacyBalanceMigrated _ _ _

/-- Some lot is the balance lot already, by its id or by its grant key. -/
def HoldsBalanceLot (s : MemoryGrantLotLedger) (input : LegacyGrantLotMigrationInput) : Prop :=
  ∃ lot ∈ s.lots, lot.workspaceId = input.workspaceId ∧ (lot.id = input.balanceLotId ∨
    lot.grantIdempotencyKey = some (GRANT_IDEMPOTENCY_KEY_PREFIX ++ input.balanceLotId))

instance (s : MemoryGrantLotLedger) (input : LegacyGrantLotMigrationInput) :
    Decidable (HoldsBalanceLot s input) :=
  inferInstanceAs (Decidable (∃ lot ∈ s.lots, _))

variable {lot : GrantLot}

theorem findLot_eq_some (h : LotKeyed s) (hmem : lot ∈ s.lots) :
    s.findLot lot.workspaceId lot.id = some lot := by
  refine find?_of_nodup h hmem fun other _ => ?_
  simp [GrantLot.isLot, GrantLot.key]

/-- What a lot adds to the mirrored balance. -/
def GrantLot.mirrored (workspaceId : String) (resource : GrantLotResource) (lot : GrantLot) : Int :=
  if lot.mirrors workspaceId resource then lot.remainingAmount else 0

theorem mirroredRemaining_eq (workspaceId : String) (resource : GrantLotResource) :
    s.mirroredRemaining workspaceId resource =
      tally (GrantLot.mirrored workspaceId resource) s.lots := tally_filter ..

/-- The resource of the migration. -/
def Migrates (input : LegacyGrantLotMigrationInput) (workspaceId : String)
    (resource : GrantLotResource) : Prop :=
  workspaceId = input.workspaceId ∧ resource = input.resource

instance (workspaceId : String) (resource : GrantLotResource) :
    Decidable (Migrates input workspaceId resource) := inferInstanceAs (Decidable (_ ∧ _))

theorem mirrors_iff {workspaceId : String} {resource : GrantLotResource}
    (h : lot.mirrors input.workspaceId input.resource = true) :
    lot.mirrors workspaceId resource = true ↔ Migrates input workspaceId resource := by
  simp only [GrantLot.mirrors, Bool.and_eq_true, beq_iff_eq, bne_iff_ne] at h ⊢
  obtain ⟨⟨hworkspace, hresource⟩, htype⟩ := h
  rw [Migrates, hworkspace, hresource, eq_comm, eq_comm (a := resource)]
  exact and_iff_left htype

/-- **A charge of a mirrored lot** takes its amount from the mirrored balance of its resource, and
from no other. -/
theorem mirroredRemaining_charge (h : LotKeyed s) (hmem : lot ∈ s.lots)
    (hmirrors : lot.mirrors input.workspaceId input.resource = true) (amount : Int)
    (t : GrantLotTransaction) (workspaceId : String) (resource : GrantLotResource) :
    ((s.amend input.workspaceId lot.id (·.charged amount)).push t).mirroredRemaining workspaceId
      resource = s.mirroredRemaining workspaceId resource -
        if Migrates input workspaceId resource then amount else 0 := by
  have hworkspace : lot.workspaceId = input.workspaceId := by
    simp only [GrantLot.mirrors, Bool.and_eq_true, beq_iff_eq] at hmirrors
    exact hmirrors.1.1
  have hfind := findLot_eq_some h hmem
  rw [hworkspace] at hfind
  rw [mirroredRemaining_eq, mirroredRemaining_eq]
  refine (tally_updateFirst (g := (·.charged amount)) _ hfind).trans ?_
  have hcharged : (lot.charged amount).mirrors workspaceId resource =
      lot.mirrors workspaceId resource := rfl
  rw [GrantLot.mirrored, GrantLot.mirrored, hcharged]
  by_cases hmig : Migrates input workspaceId resource
  · rw [if_pos ((mirrors_iff hmirrors).mpr hmig), if_pos ((mirrors_iff hmirrors).mpr hmig),
      if_pos hmig, GrantLot.charged]
    dsimp only
    omega
  · rw [if_neg (mt (mirrors_iff hmirrors).mp hmig), if_neg (mt (mirrors_iff hmirrors).mp hmig),
      if_neg hmig]
    omega

/-- A charge leaves every lot where it is. -/
theorem exists_mem_charge (h : LotKeyed s) {other : GrantLot} (hmem : lot ∈ s.lots)
    (hother : other ∈ s.lots) (amount : Int) :
    ∃ after ∈ (s.amend lot.workspaceId lot.id (·.charged amount)).lots, after.id = other.id ∧
      ∀ workspaceId resource,
        after.mirrors workspaceId resource = other.mirrors workspaceId resource := by
  rw [MemoryGrantLotLedger.amend, updateFirst_eq_map h (findLot_eq_some h hmem)]
  refine ⟨_, List.mem_map.mpr ⟨other, hother, rfl⟩, ?_⟩
  split
  · exact ⟨rfl, fun _ _ => rfl⟩
  · exact ⟨rfl, fun _ _ => rfl⟩

/-- **Charging allocations of mirrored lots** takes their total from the mirrored balance. -/
theorem chargeGrantLots_spec (usage : Nat → String × Int → GrantLotTransaction) :
    ∀ (index : Nat) (allocations : List (String × Int)) {s : MemoryGrantLotLedger}, LotKeyed s →
      (∀ allocation ∈ allocations, ∃ lot ∈ s.lots, lot.id = allocation.1 ∧
        lot.mirrors input.workspaceId input.resource = true) →
      Wp (chargeGrantLots input.workspaceId usage index allocations) s
        (fun _ s' => s'.legacyBalanceMigrations = s.legacyBalanceMigrations ∧
          ∀ workspaceId resource, s'.mirroredRemaining workspaceId resource =
            s.mirroredRemaining workspaceId resource -
              if Migrates input workspaceId resource then tally (·.2) allocations else 0)
        fun _ _ => False
  | _, [], s, _, _ => by
    simp only [chargeGrantLots, wp_pure, tally_nil, ite_self, sub_zero, implies_true, and_self]
  | index, allocation :: allocations, s, h, hall => by
    obtain ⟨⟨lot, hmem, hid, hmirrors⟩, hrest⟩ := List.forall_mem_cons.mp hall
    have hworkspace : lot.workspaceId = input.workspaceId := by
      simp only [GrantLot.mirrors, Bool.and_eq_true, beq_iff_eq] at hmirrors
      exact hmirrors.1.1
    have hfind := findLot_eq_some h hmem
    rw [hworkspace, hid] at hfind
    have hcharge := mirroredRemaining_charge h hmem hmirrors allocation.2 (usage index allocation)
    rw [hid] at hcharge
    have hkeyed : LotKeyed ((s.amend input.workspaceId allocation.1 (·.charged allocation.2)).push
        (usage index allocation)) :=
      (GrantLotWrite.push _).lotKeyed
        ((GrantLotWrite.amend _ _ (·.charged allocation.2) fun _ => rfl).lotKeyed h)
    have hlots : ∀ next ∈ allocations, ∃ lot ∈ ((s.amend input.workspaceId allocation.1
        (·.charged allocation.2)).push (usage index allocation)).lots, lot.id = next.1 ∧
          lot.mirrors input.workspaceId input.resource = true := by
      intro next hnext
      obtain ⟨other, hother, hid', hmirrors'⟩ := hrest next hnext
      obtain ⟨after, hafter, hsame, hsides⟩ := exists_mem_charge h hmem hother allocation.2
      rw [hworkspace, hid] at hafter
      exact ⟨after, hafter, hsame.trans hid', (hsides _ _).trans hmirrors'⟩
    simp only [chargeGrantLots, wp_bind, wp_get, hfind, wp_set, wp_pure]
    refine (chargeGrantLots_spec usage (index + 1) allocations hkeyed hlots).mono
      (fun _ s' hs' => ⟨hs'.1, fun workspaceId resource => ?_⟩) fun _ _ hfalse => hfalse
    rw [hs'.2, hcharge, tally_cons]
    split <;> omega

/-- **What the lots give of an amount they hold** adds up to it, each a share of a lot. -/
theorem allocateFifoConsumption_spec {lots : List GrantLot} {amount : Int} (hpos : 0 < amount)
    (hle : amount ≤ tally (·.remainingAmount) lots) :
    tally (·.2) (allocateFifoConsumption host lots amount) = amount ∧
      ∀ allocation ∈ allocateFifoConsumption host lots amount,
        ∃ lot ∈ lots, lot.id = allocation.1 := by
  rw [allocateFifoConsumption, if_neg (by omega)]
  have hperm := sortBy_perm (compareGrantLotsForFifo host)
    (lots.filter fun lot => 0 < lot.remainingAmount)
  have hpositive : ∀ lot ∈ sortBy (compareGrantLotsForFifo host)
      (lots.filter fun lot => 0 < lot.remainingAmount), 0 < lot.remainingAmount := fun lot hlot =>
    of_decide_eq_true (List.mem_filter.mp (hperm.mem_iff.mp hlot)).2
  have hholds : amount ≤ tally (·.remainingAmount)
      (lots.filter fun lot => 0 < lot.remainingAmount) := by
    refine hle.trans ?_
    rw [tally_filter]
    refine tally_le_tally fun lot _ => ?_
    split
    · exact le_refl _
    · next hnot => simpa using hnot
  constructor
  · rw [tally_map]
    refine (tally_greedy hpos.le hpositive).trans ?_
    rw [tally_perm _ hperm, min_eq_left hholds]
  · rintro _ hallocation
    obtain ⟨⟨lot, taken⟩, htaken, rfl⟩ := List.mem_map.mp hallocation
    have hserved := (greedy_sublist amount _).subset (List.mem_map.mpr ⟨_, htaken, rfl⟩)
    exact ⟨lot, List.mem_of_mem_filter (hperm.mem_iff.mp hserved), rfl⟩

/-- The mirrored balances a migration leaves. -/
def BalancesKept (input : LegacyGrantLotMigrationInput) (s s' : MemoryGrantLotLedger) : Prop :=
  ∀ workspaceId resource, s'.mirroredRemaining workspaceId resource =
    if Migrates input workspaceId resource ∧
        ¬ (s.mirroredRemaining workspaceId resource < input.legacyAvailable ∧
          HoldsBalanceLot s input) then input.legacyAvailable
    else s.mirroredRemaining workspaceId resource

variable {field : String}

theorem assertIsoTimestamp_eq_ok {value : String} : assertIsoTimestamp host value field = .ok () ↔
      isBlank value = false ∧ (host.dateParse value).isSome = true := by
  simp only [assertIsoTimestamp, last_guard_eq_ok, not_or, Bool.not_eq_true,
    Option.isNone_eq_false_iff]

/-- The mark of a migration whose date is read. -/
theorem markLegacyBalanceMigrated_spec (hasOf : assertIsoTimestamp host input.asOf field = .ok ()) :
    Wp (markLegacyBalanceMigrated host input.workspaceId input.resource input.asOf) s
      (fun _ s' => s'.isLegacyBalanceMigrated input.workspaceId input.resource = true ∧
        s'.lots = s.lots) fun _ _ => False := by
  have hdate : assertIsoTimestamp host input.asOf "completedAt" = .ok () :=
    assertIsoTimestamp_eq_ok.mpr (assertIsoTimestamp_eq_ok.mp hasOf)
  simp only [markLegacyBalanceMigrated, wp_bind, wp_check_ok hdate, wp_modify,
    isLegacyBalanceMigrated, List.contains_iff_mem, List.mem_insert_self, and_self]

theorem existingGrant_missingBalance {missing : Int} :
    s.existingGrant (missingBalanceGrant input missing)
        (GRANT_IDEMPOTENCY_KEY_PREFIX ++ input.balanceLotId) = none ↔
      ¬ HoldsBalanceLot s input := by
  rw [existingGrant_eq_none, findLot, List.find?_eq_none, HoldsBalanceLot]
  simp only [missingBalanceGrant, GrantLot.isLot]
  grind

/-- **The missing balance is granted as a lot of its own**, unless the ledger holds that lot. -/
theorem grantLot_missingBalance {missing : Int} :
    Wp (grantLot host (missingBalanceGrant input missing)) s
      (fun _ s' => s'.legacyBalanceMigrations = s.legacyBalanceMigrations ∧
        ∀ workspaceId resource, s'.mirroredRemaining workspaceId resource =
          s.mirroredRemaining workspaceId resource +
            if Migrates input workspaceId resource ∧ ¬ HoldsBalanceLot s input then missing else 0)
      fun _ s' => s' = s := by
  have hkey : normalizeGrantIdempotencyKey (missingBalanceGrant input missing).id
      (missingBalanceGrant input missing).grantIdempotencyKey =
        .ok (GRANT_IDEMPOTENCY_KEY_PREFIX ++ input.balanceLotId) := rfl
  simp only [grantLot, wp_bind, wp_check, wp_get, hkey, Except.ok.injEq, reduceCtorEq,
    false_imp_iff, implies_true, and_true, forall_eq']
  intro _ _
  split
  · next existing hexisting =>
    have hholds : HoldsBalanceLot s input := by
      by_contra hnone
      rw [existingGrant_missingBalance.mpr hnone] at hexisting
      cases hexisting
    simp only [wp_ite, wp_pure, wp_throw, hholds, not_true, and_false, if_false, add_zero,
      implies_true, and_self]
  · next hnone =>
    have hholds := existingGrant_missingBalance.mp hnone
    simp only [wp_bind, wp_set, wp_pure, hholds, not_false_eq_true, and_true]
    refine ⟨rfl, fun workspaceId resource => ?_⟩
    rw [mirroredRemaining_eq, mirroredRemaining_eq]
    have hmirrors : (openedGrantLot (missingBalanceGrant input missing)
        (GRANT_IDEMPOTENCY_KEY_PREFIX ++ input.balanceLotId)).mirrors input.workspaceId
          input.resource = true := by
      simp [GrantLot.mirrors, openedGrantLot, missingBalanceGrant]
    refine (tally_append ..).trans ?_
    rw [tally_cons, tally_nil, add_zero, GrantLot.mirrored]
    simp only [mirrors_iff hmirrors]
    rfl

/-- **What the migration leaves**: the legacy balance, unless the balance lot was there. -/
theorem migrateBalance_spec (h : LotKeyed s) (hlegacy : 0 ≤ input.legacyAvailable)
    (hasOf : assertIsoTimestamp host input.asOf field = .ok ()) : Wp (migrateBalance host input) s
      (fun _ s' => s'.isLegacyBalanceMigrated input.workspaceId input.resource = true ∧
        BalancesKept input s s')
      fun _ s' => s' = s := by
  have hbalance : ∀ {s₁ s₂ : MemoryGrantLotLedger}, s₂.lots = s₁.lots → ∀ workspaceId resource,
      s₂.mirroredRemaining workspaceId resource = s₁.mirroredRemaining workspaceId resource := by
    intro s₁ s₂ hlots workspaceId resource
    rw [mirroredRemaining, mirroredRemaining, hlots]
  -- the lots of the resource, in any workspace the migration is about
  have hsame : ∀ {workspaceId : String} {resource : GrantLotResource},
      Migrates input workspaceId resource → s.mirroredRemaining workspaceId resource =
        s.mirroredRemaining input.workspaceId input.resource := by
    rintro workspaceId resource ⟨rfl, rfl⟩
    rfl
  simp only [migrateBalance, wp_bind, wp_get, wp_ite]
  refine ⟨fun husage => ?_, fun husage => ⟨fun hmissing => ?_, fun hmissing => ?_⟩⟩
  · obtain ⟨htotal, hlots⟩ := @allocateFifoConsumption_spec host
      (s.lots.filter (·.mirrors input.workspaceId input.resource)) _ husage (by
        change _ ≤ s.mirroredRemaining input.workspaceId input.resource
        omega)
    refine (chargeGrantLots_spec (legacyUsage input) 0 _ h fun allocation hallocation => ?_).mono
      (fun _ s₁ hs₁ => ?_) fun _ _ hfalse => hfalse.elim
    · obtain ⟨lot, hlot, hid⟩ := hlots allocation hallocation
      obtain ⟨hmem, hmirrors⟩ := List.mem_filter.mp hlot
      exact ⟨lot, hmem, hid, hmirrors⟩
    · refine (markLegacyBalanceMigrated_spec hasOf).mono (fun _ s₂ hs₂ => ⟨hs₂.1, ?_⟩)
        fun _ _ hfalse => hfalse.elim
      intro workspaceId resource
      rw [hbalance hs₂.2, hs₁.2, htotal]
      by_cases hmig : Migrates input workspaceId resource
      · have heq := hsame hmig
        rw [if_pos hmig, if_pos ⟨hmig, fun hshort => by omega⟩]
        omega
      · rw [if_neg hmig, if_neg fun hboth => hmig hboth.1, sub_zero]
  · refine grantLot_missingBalance.mono (fun _ s₁ hs₁ => ?_) fun _ _ hs => hs
    refine (markLegacyBalanceMigrated_spec hasOf).mono (fun _ s₂ hs₂ => ⟨hs₂.1, ?_⟩)
      fun _ _ hfalse => hfalse.elim
    intro workspaceId resource
    rw [hbalance hs₂.2, hs₁.2]
    by_cases hmig : Migrates input workspaceId resource
    · have heq := hsame hmig
      by_cases hholds : HoldsBalanceLot s input
      · rw [if_neg fun hboth => hboth.2 hholds, if_neg fun hboth => hboth.2 ⟨by omega, hholds⟩,
          add_zero]
      · rw [if_pos ⟨hmig, hholds⟩, if_pos ⟨hmig, fun hboth => hholds hboth.2⟩]
        omega
    · rw [if_neg fun hboth => hmig hboth.1, if_neg fun hboth => hmig hboth.1, add_zero]
  · refine (markLegacyBalanceMigrated_spec hasOf).mono (fun _ s₂ hs₂ => ⟨hs₂.1, ?_⟩)
      fun _ _ hfalse => hfalse.elim
    intro workspaceId resource
    rw [hbalance hs₂.2]
    by_cases hmig : Migrates input workspaceId resource
    · have heq := hsame hmig
      rw [if_pos ⟨hmig, fun hshort => by omega⟩]
      omega
    · rw [if_neg fun hboth => hmig hboth.1]

theorem wp_restoring {x : GrantLotM Unit} {Q : Unit → MemoryGrantLotLedger → Prop}
    {E : Thrown → MemoryGrantLotLedger → Prop} : Wp (restoring x) s Q E ↔ Wp x s Q fun e s' =>
      E e { s' with lots := s.lots, transactions := s.transactions } := by
  rw [Wp, Wp, restoring]
  rcases x s with ⟨u, s'⟩ | ⟨e, s'⟩ <;> rfl

theorem writes_migrateLegacyBalance (input : LegacyGrantLotMigrationInput) :
    Writes GrantLotWrite (migrateLegacyBalance host input) s := by
  refine writes_get_bind (Writes.ite (Writes.pure _) ?_)
  refine Writes.bind (Writes.check _) fun _ s => Writes.bind (Writes.check _) fun _ s => ?_
  refine Writes.bind (Writes.check _) fun _ s => ?_
  rw [writes_iff, wp_restoring]
  exact (writes_iff.mp (writes_migrateBalance input)).mono (fun _ _ h => h) fun _ s' _ =>
    .single (.marked s'.legacyBalanceMigrations)

theorem writes_grantLotCall (call : GrantLotCall) :
    ReflTransGen GrantLotWrite s (call.step host s) :=
  match call with
  | .grant input => (writes_grantLot input).final
  | .consume input => (writes_consumeGrantLots input).final
  | .refundUsage input => (writes_refundGrantLotUsage input).final
  | .refundUsageOperation input => (writes_refundGrantLotOperation input).final
  | .reconcileEntitlementLots input => (writes_reconcileEntitlementLots input).final
  | .expireLots input => (writes_expireGrantLots input).final
  | .rebuildProjection input => (writes_rebuildGrantLotProjection input).final
  | .markLegacyBalanceMigrated workspaceId resource completedAt =>
    (writes_markLegacyBalanceMigrated workspaceId resource completedAt).final
  | .migrateLegacyBalance input => (writes_migrateLegacyBalance input).final

/-- **The lots of every run have keys of their own.** -/
theorem lotKeyed_run (calls : List GrantLotCall) : LotKeyed (runGrantLots host calls) :=
  runAll_invariant LotKeyed (fun _ call h => chain_invariant LotKeyed
    (fun _ _ hwrite => hwrite.lotKeyed) (writes_grantLotCall call) h) calls List.nodup_nil

/-- The migration adds up exactly: the amounts in the ledger, those of the lots it reads and the one
it is given are numbers up to `2 ^ 53`, together. -/
structure AddsUpExactly (s : MemoryGrantLotLedger) (input : LegacyGrantLotMigrationInput) :
    Prop where
  transactions : tally (|·.amount|) s.transactions ≤ 2 ^ 53
  lots : tally (|·.remainingAmount|)
    (s.lots.filter (·.mirrors input.workspaceId input.resource)) ≤ 2 ^ 53
  legacy : input.legacyAvailable ≤ 2 ^ 53

/-- **What a migration does**, returned or thrown; what it leaves, where it adds up exactly. -/
structure LegacyMigrated (host : Host) (s : MemoryGrantLotLedger)
    (input : LegacyGrantLotMigrationInput) : Prop where
  balance : ∀ s', migrateLegacyBalance host input s = .ok () s' →
    s.isLegacyBalanceMigrated input.workspaceId input.resource = false → AddsUpExactly s input →
      (s'.mirroredRemaining input.workspaceId input.resource = input.legacyAvailable ↔
        ¬ (s.mirroredRemaining input.workspaceId input.resource < input.legacyAvailable ∧
          HoldsBalanceLot s input))
  others : ∀ s', migrateLegacyBalance host input s = .ok () s' → ∀ workspaceId resource,
    ¬ Migrates input workspaceId resource →
      s'.mirroredRemaining workspaceId resource = s.mirroredRemaining workspaceId resource
  again : ∀ s', migrateLegacyBalance host input s = .ok () s' →
    ∀ later : LegacyGrantLotMigrationInput, Migrates later input.workspaceId input.resource →
      migrateLegacyBalance host later s' = .ok () s'
  thrown : ∀ e s', migrateLegacyBalance host input s = .error e s' → s' = s

/-- **A migration made before is not made again.** -/
theorem migrateLegacyBalance_again
    (h : s.isLegacyBalanceMigrated input.workspaceId input.resource = true) :
    migrateLegacyBalance host input s = .ok () s := by
  rw [migrateLegacyBalance, Effect.get_bind, if_pos h]
  rfl

theorem migrateLegacyBalance_spec (h : LotKeyed s)
    (hnew : s.isLegacyBalanceMigrated input.workspaceId input.resource = false) :
    Wp (migrateLegacyBalance host input) s
      (fun _ s' => s'.isLegacyBalanceMigrated input.workspaceId input.resource = true ∧
        BalancesKept input s s')
      fun _ s' => s' = s := by
  simp only [migrateLegacyBalance, wp_bind, wp_get, hnew, Bool.false_eq_true, if_false, wp_check]
  refine ⟨fun _ hlegacy => ⟨fun _ _ => ⟨fun _ hasOf => ?_, fun _ _ => trivial⟩, fun _ _ => trivial⟩,
    fun _ _ => trivial⟩
  have hnonneg : 0 ≤ input.legacyAvailable := by
    rw [last_guard_eq_ok] at hlegacy
    omega
  rw [wp_restoring]
  refine (migrateBalance_spec h hnonneg hasOf).mono (fun _ _ hs => hs) fun _ s' hs => ?_
  rw [hs]

theorem legacyMigrated (h : LotKeyed s) : LegacyMigrated host s input := by
  by_cases hdone : s.isLegacyBalanceMigrated input.workspaceId input.resource = true
  · have hsame := @migrateLegacyBalance_again host _ _ hdone
    refine ⟨fun s' _ hnew _ => ?_, fun s' hrun _ _ _ => ?_, fun s' hrun later hlater => ?_,
      fun e s' hrun => ?_⟩
    · exact absurd (hnew.symm.trans hdone) Bool.false_ne_true
    · obtain ⟨-, rfl⟩ := EStateM.Result.ok.inj (hsame.symm.trans hrun)
      rfl
    · obtain ⟨-, rfl⟩ := EStateM.Result.ok.inj (hsame.symm.trans hrun)
      rw [hlater.1, hlater.2] at hdone
      exact migrateLegacyBalance_again hdone
    · exact nomatch hsame.symm.trans hrun
  · have hspec := @migrateLegacyBalance_spec host _ _ h (Bool.eq_false_of_not_eq_true hdone)
    refine ⟨fun s' hrun _ _ => ?_, fun s' hrun workspaceId resource hother => ?_,
      fun s' hrun later hlater => ?_, fun e s' hrun => hspec.of_eq_error hrun⟩
    · have hbalance := (hspec.of_eq_ok hrun).2 input.workspaceId input.resource
      by_cases hheld : s.mirroredRemaining input.workspaceId input.resource <
          input.legacyAvailable ∧ HoldsBalanceLot s input
      · rw [if_neg fun hboth => hboth.2 hheld] at hbalance
        have hshort := hheld.1
        exact iff_of_false (by omega) (not_not.mpr hheld)
      · rw [if_pos ⟨⟨rfl, rfl⟩, hheld⟩] at hbalance
        exact iff_of_true hbalance hheld
    · exact ((hspec.of_eq_ok hrun).2 workspaceId resource).trans
        (if_neg fun hboth => hother hboth.1)
    · have hmarked := (hspec.of_eq_ok hrun).1
      rw [hlater.1, hlater.2] at hmarked
      exact migrateLegacyBalance_again hmarked

end Migration

/-- **In every reachable ledger a migration keeps the legacy balance**, once and whole or not at
all. -/
theorem legacyMigrated_run (host : Host) (calls : List GrantLotCall)
    (input : LegacyGrantLotMigrationInput) :
    LegacyMigrated host (runGrantLots host calls) input := legacyMigrated (lotKeyed_run calls)

/-- A migration of images whose mirrored lots are to hold `legacyAvailable`. -/
def imageMigration (legacyAvailable : Int) : LegacyGrantLotMigrationInput where
  workspaceId := "w"
  resource := .image
  legacyAvailable := legacyAvailable
  legacySnapshotId := "snapshot"
  balanceLotId := "balance"
  createdAt := "2026-01-01T00:00:00.000Z"
  asOf := "2026-01-01T00:00:00.000Z"

/-- The balance lot granted before its migration, and consumed. -/
def consumedBalance : List GrantLotCall :=
  [.grant (missingBalanceGrant (imageMigration 5) 5),
    .consume ⟨"w", .image, 5, "task", "actor", "correlation", "2026-01-01T00:00:00.000Z"⟩]

/-- **The balance falls short where the balance lot was granted and consumed before**: the grant is
taken for a replay.  **And what is migrated stays**, whatever is asked for next. -/
theorem not_legacyBalance_kept :
    (¬ ∀ calls input s',
      migrateLegacyBalance isoHost input (runGrantLots isoHost calls) = .ok () s' →
      (runGrantLots isoHost calls).isLegacyBalanceMigrated input.workspaceId input.resource =
        false →
        s'.mirroredRemaining input.workspaceId input.resource = input.legacyAvailable) ∧
    ¬ ∀ calls input s',
      migrateLegacyBalance isoHost input (runGrantLots isoHost calls) = .ok () s' →
      (runGrantLots isoHost calls).isLegacyBalanceMigrated input.workspaceId input.resource =
        true →
        s'.mirroredRemaining input.workspaceId input.resource = input.legacyAvailable := by
  have hconsumed : (runGrantLots isoHost consumedBalance).isLegacyBalanceMigrated "w"
        .image = false ∧
      (result (migrateLegacyBalance isoHost (imageMigration 5))
        (runGrantLots isoHost consumedBalance)).isOk = true ∧
      (final (migrateLegacyBalance isoHost (imageMigration 5))
        (runGrantLots isoHost consumedBalance)).mirroredRemaining "w" .image = 0 := by
    decide +kernel
  have hmigrated : (runGrantLots isoHost [.migrateLegacyBalance (imageMigration 5)]
      ).isLegacyBalanceMigrated "w" .image = true ∧
      (runGrantLots isoHost [.migrateLegacyBalance (imageMigration 5)]).mirroredRemaining "w"
        .image = 5 := by
    decide +kernel
  refine ⟨fun hclaim => ?_, fun hclaim => ?_⟩
  · obtain ⟨hnew, hok, hleft⟩ := hconsumed
    rcases hrun : migrateLegacyBalance isoHost (imageMigration 5)
        (runGrantLots isoHost consumedBalance) with ⟨u, s'⟩ | ⟨e, s'⟩
    · have hkept : s'.mirroredRemaining "w" .image = 5 := hclaim _ _ _ hrun hnew
      rw [final, hrun] at hleft
      exact absurd (hleft.symm.trans hkept) (by decide)
    · rw [result, hrun] at hok
      exact nomatch hok
  · obtain ⟨hdone, hkept⟩ := hmigrated
    have hleft : _ = (7 : Int) := hclaim _ (imageMigration 7) _
      (migrateLegacyBalance_again hdone) hdone
    exact absurd (hkept.symm.trans hleft) (by decide)

end MeiyeAgent
