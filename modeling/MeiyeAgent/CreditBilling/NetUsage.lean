import MeiyeAgent.CreditBilling.LedgerWrites

/-!
# CreditBilling/NetUsage — what an operation has used, less what was given back

Only the rows count, not the lots: a refund into a lot that has expired gives nothing back to the
lot, and still answers the usage.

* `netUsage` — the credits of an operation's USAGE rows less those of the REFUND rows.
* `WholeRefunds` — a row that was refunded was refunded in full.
* `consume_net`, `refund_net`, `upkeep_net` — **what a call does to the net usage** of every
  operation.
-/

namespace MeiyeAgent

open Effect Table Text MemoryCreditLedger

namespace MemoryCreditLedger

/-- What of a USAGE row has not been refunded. -/
def openCredits (s : MemoryCreditLedger) (ws : String) (usage : CreditLotTransaction) : Int :=
  usage.credits - tally (·.credits) (s.transactions.filter (·.isRefundOf ws usage.id))

/-- **The usage of an operation less its refunds.** -/
def netUsage (s : MemoryCreditLedger) (ws op : String) : Int :=
  tally (s.openCredits ws) (s.usagesOf ws op)

end MemoryCreditLedger

/-- Rows were added at the end, and lots may have moved. -/
structure Appends (s s' : MemoryCreditLedger) (rows : List CreditLotTransaction) : Prop where
  transactions : s'.transactions = s.transactions ++ rows

/-- **A refunded row is refunded in full.** -/
def WholeRefunds (s : MemoryCreditLedger) : Prop :=
  ∀ ws u, u ∈ s.transactions → u.workspaceId = ws → u.transactionType = .USAGE →
    s.Refunded ws u.id → s.openCredits ws u = 0

variable {host : Host} {s s' : MemoryCreditLedger} {rows : List CreditLotTransaction}
  {u : CreditLotTransaction} {ws op id : String}

theorem openCredits_of_not_refunded (h : ¬ s.Refunded ws u.id) : s.openCredits ws u = u.credits := by
  have hnone : s.transactions.filter (·.isRefundOf ws u.id) = [] :=
    List.filter_eq_nil_iff.mpr fun t ht hrefund => h ⟨t, ht, hrefund⟩
  rw [openCredits, hnone, tally_nil, sub_zero]

/-! ## Rows added -/

theorem Appends.openCredits (h : Appends s s' rows) :
    s'.openCredits ws u = s.openCredits ws u -
      tally (·.credits) (rows.filter (·.isRefundOf ws u.id)) := by
  rw [MemoryCreditLedger.openCredits, MemoryCreditLedger.openCredits, h.transactions,
    List.filter_append, tally_append]
  omega

theorem Appends.usagesOf (h : Appends s s' rows) :
    s'.usagesOf ws op = s.usagesOf ws op ++ rows.filter (·.isUsageOf ws op) := by
  rw [MemoryCreditLedger.usagesOf, MemoryCreditLedger.usagesOf, h.transactions,
    List.filter_append]

theorem Appends.refunded (h : Appends s s' rows) :
    s'.Refunded ws id ↔ s.Refunded ws id ∨ ∃ t ∈ rows, t.isRefundOf ws id = true := by
  simp only [MemoryCreditLedger.Refunded, h.transactions, List.mem_append, or_and_right, exists_or]

/-- Rows that are no refunds leave what was open. -/
theorem Appends.openCredits_eq (h : Appends s s' rows)
    (hrows : ∀ t ∈ rows, t.transactionType ≠ .REFUND) :
    s'.openCredits ws u = s.openCredits ws u := by
  have hnone : rows.filter (·.isRefundOf ws u.id) = [] :=
    List.filter_eq_nil_iff.mpr fun t ht hrefund =>
      hrows t ht (CreditLotTransaction.isRefundOf_eq_true.mp hrefund).2.1
  rw [h.openCredits, hnone, tally_nil, sub_zero]

theorem Appends.netUsage_eq (h : Appends s s' rows)
    (hrows : ∀ t ∈ rows, t.transactionType ≠ .REFUND)
    (hother : ∀ t ∈ rows, t.isUsageOf ws op = false) :
    s'.usagesOf ws op = s.usagesOf ws op ∧ s'.netUsage ws op = s.netUsage ws op := by
  have husages : s'.usagesOf ws op = s.usagesOf ws op := by
    rw [h.usagesOf, List.filter_eq_nil_iff.mpr fun t ht => by simp [hother t ht], List.append_nil]
  refine ⟨husages, ?_⟩
  rw [netUsage, netUsage, husages]
  exact tally_congr fun u _ => h.openCredits_eq hrows

theorem Appends.wholeRefunds (h : Appends s s' rows) (hwhole : WholeRefunds s)
    (hrows : ∀ t ∈ rows, t.transactionType ≠ .REFUND)
    (hfresh : ∀ t ∈ rows, t.transactionType = .USAGE → ¬ s.Refunded t.workspaceId t.id) :
    WholeRefunds s' := by
  intro ws u hu hws husage hrefunded
  have hbefore : s.Refunded ws u.id := by
    rcases h.refunded.mp hrefunded with hold | ⟨t, ht, hrefund⟩
    · exact hold
    · exact absurd (CreditLotTransaction.isRefundOf_eq_true.mp hrefund).2.1 (hrows t ht)
  rw [h.openCredits_eq hrows]
  rw [h.transactions, List.mem_append] at hu
  rcases hu with hold | hnew
  · exact hwhole ws u hold hws husage hbefore
  · exact absurd (hws ▸ hbefore) (hfresh u hnew husage)

/-! ## Expiry -/

theorem expireAll_extends (family actorId correlationId createdAt : String) :
    ∀ (lots : List CreditGrantLot) (s : MemoryCreditLedger), ∃ rows,
      Appends s (expireAll family actorId correlationId createdAt lots s) rows ∧
        ∀ t ∈ rows, t.transactionType = .EXPIRE
  | [], s => ⟨[], ⟨(List.append_nil _).symm⟩, fun _ h => absurd h List.not_mem_nil⟩
  | lot :: lots, s => by
    obtain ⟨rows, hrows, hexpire⟩ := expireAll_extends family actorId correlationId createdAt lots
      ((s.setRemaining lot.workspaceId lot.id 0).push
        (expireTransaction family lot actorId correlationId createdAt))
    refine ⟨expireTransaction family lot actorId correlationId createdAt :: rows,
      ⟨hrows.transactions.trans ?_⟩, List.forall_mem_cons.mpr ⟨rfl, hexpire⟩⟩
    rw [push_transactions, setRemaining_transactions, List.append_assoc]
    rfl

theorem expireLots_extends (input : ExpireLotsInput) :
    Wp (MeiyeAgent.expireLots host input) s (fun _ s' => ∃ rows, Appends s s' rows ∧
      ∀ t ∈ rows, t.transactionType = .EXPIRE) (fun _ s' => s' = s) := by
  simp only [MeiyeAgent.expireLots, wp_bind, wp_check, wp_get]
  refine ⟨fun _ _ => ?_, fun _ _ => trivial⟩
  rw [Wp, expireEach_eq]
  exact expireAll_extends _ _ _ _ _ _

/-- **The ledger's own upkeep leaves every usage as it was**, and refunds nothing. -/
structure SameUsage (s s' : MemoryCreditLedger) : Prop where
  usagesOf : ∀ ws op, s'.usagesOf ws op = s.usagesOf ws op
  netUsage : ∀ ws op, s'.netUsage ws op = s.netUsage ws op
  whole : WholeRefunds s → WholeRefunds s'

theorem SameUsage.refl : SameUsage s s := ⟨fun _ _ => rfl, fun _ _ => rfl, id⟩

theorem Appends.sameUsage (h : Appends s s' rows)
    (hrows : ∀ t ∈ rows, t.transactionType ≠ .REFUND ∧ t.transactionType ≠ .USAGE) :
    SameUsage s s' := by
  have hother (ws op : String) : ∀ t ∈ rows, t.isUsageOf ws op = false := fun t ht =>
    Bool.eq_false_iff.mpr fun husage =>
      (hrows t ht).2 (CreditLotTransaction.isUsageOf_eq_true.mp husage).2.1
  have hnone := fun t ht => (hrows t ht).1
  exact ⟨fun ws op => (h.netUsage_eq hnone (hother ws op)).1,
    fun ws op => (h.netUsage_eq hnone (hother ws op)).2,
    fun hwhole => h.wholeRefunds hwhole hnone fun t ht husage => absurd husage (hrows t ht).2⟩

theorem sameUsage_expireLots (input : ExpireLotsInput) :
    Wp (MeiyeAgent.expireLots host input) s (fun _ s' => SameUsage s s')
      (fun _ s' => SameUsage s s') := by
  refine (expireLots_extends input).mono (fun _ s' h => ?_) fun _ s' h => h ▸ .refl
  obtain ⟨rows, hrows, hexpire⟩ := h
  exact hrows.sameUsage fun t ht => by rw [hexpire t ht]; exact ⟨nofun, nofun⟩

theorem sameUsage_expireSubscriptionLots (input : ExpireSubscriptionLotsInput) :
    Wp (MeiyeAgent.expireSubscriptionLots input) s (fun _ s' => SameUsage s s')
      (fun _ s' => SameUsage s s') := by
  simp only [MeiyeAgent.expireSubscriptionLots, wp_bind, wp_get]
  rw [Wp, expireEach_eq]
  obtain ⟨rows, hrows, hexpire⟩ := expireAll_extends "expire-subscription" input.actorId
    input.correlationId input.createdAt (s.lots.filter fun lot =>
      lot.isRenewalOf input.workspaceId input.subscriptionId && 0 < lot.remainingCredits) s
  exact hrows.sameUsage fun t ht => by rw [hexpire t ht]; exact ⟨nofun, nofun⟩

theorem sameUsage_grant (input : GrantCreditsInput) :
    Wp (MeiyeAgent.grant host input) s (fun _ s' => SameUsage s s')
      (fun _ s' => SameUsage s s') := by
  simp only [MeiyeAgent.grant, wp_bind, wp_check, wp_get]
  refine ⟨fun _ _ => ⟨fun key _ => ?_, fun _ _ => .refl⟩, fun _ _ => .refl⟩
  split
  · simp only [wp_ite, wp_pure, wp_throw]
    exact ⟨fun _ => .refl, fun _ => .refl⟩
  · simp only [wp_bind, wp_set, wp_pure]
    have hrows : Appends s ⟨s.lots ++ [grantedLot input key],
        s.transactions ++ [grantTransaction input (grantedLot input key) key]⟩
        [grantTransaction input (grantedLot input key) key] := ⟨rfl⟩
    refine hrows.sameUsage fun t ht => ?_
    rw [List.mem_singleton.mp ht]
    exact ⟨by rintro ⟨⟩, by rintro ⟨⟩⟩

/-! ## Consumption -/

/-- **Charging appends a USAGE row for each allocation.** -/
theorem chargeEach_appends {input : ConsumeCreditsInput} {op : String} :
    ∀ {allocations : List CreditAllocation} {index : Nat} {s : MemoryCreditLedger},
      Wp (chargeEach input op index allocations) s (fun _ s' => ∃ rows, Appends s s' rows ∧
        tally (·.credits) rows = tally (·.credits) allocations ∧
        ∀ t ∈ rows, t.isUsageOf input.workspaceId op = true ∧ ∃ n, t.id = indexed op n)
        (fun _ _ => True)
  | [], index, s => by
    rw [chargeEach, wp_pure]
    exact ⟨[], ⟨(List.append_nil _).symm⟩, rfl, fun _ h => absurd h List.not_mem_nil⟩
  | allocation :: allocations, index, s => by
    simp only [chargeEach, wp_bind, wp_get]
    split
    · rw [wp_throw]
      trivial
    · next lot hlot =>
      simp only [wp_bind, wp_set, wp_pure]
      refine chargeEach_appends.mono (fun _ s' h => ?_) fun _ _ _ => trivial
      obtain ⟨rows, hrows, htotal, hall⟩ := h
      refine ⟨usageTransaction input op index lot.id allocation.credits :: rows, ⟨?_⟩, ?_,
        List.forall_mem_cons.mpr ⟨⟨?_, index, rfl⟩, hall⟩⟩
      · rw [hrows.transactions, push_transactions, setRemaining_transactions, List.append_assoc]
        rfl
      · rw [tally_cons, tally_cons, htotal]
        rfl
      · exact CreditLotTransaction.isUsageOf_eq_true.mpr ⟨rfl, rfl, rfl⟩

/-- Rows of a new operation: none of them has been refunded. -/
theorem not_refunded_new (hkept : WellKept s) (hnone : s.usagesOf ws op = []) {n : Nat} :
    ¬ s.Refunded ws (indexed op n) := by
  intro h
  obtain ⟨u, hu, husage, hws, hid⟩ := hkept.refundAnswers ws _ h
  obtain ⟨m, hm⟩ := hkept.usageNumbered u hu husage
  have hop : u.operationId = op := (indexed_inj.mp (hm.symm.trans hid)).1
  have hmem := mem_usagesOf.mpr ⟨hu, hws, husage, hop⟩
  rw [hnone] at hmem
  exact absurd hmem List.not_mem_nil

/-- **What a call does to the usage of the operations**: one of them changes, to this net usage. -/
structure Moves (s s' : MemoryCreditLedger) (ws op : String) (net : Int) : Prop where
  kept : WellKept s'
  whole : WholeRefunds s'
  others : ∀ ws' op', ¬ (ws' = ws ∧ op' = op) →
    s'.usagesOf ws' op' = s.usagesOf ws' op' ∧ s'.netUsage ws' op' = s.netUsage ws' op'
  net : s'.netUsage ws op = net

theorem moves_charged (hkept : WellKept s) (hkept' : WellKept s') (hwhole : WholeRefunds s)
    (hnone : s.usagesOf ws op = []) (h : Appends s s' rows)
    (hrows : ∀ t ∈ rows, t.isUsageOf ws op = true ∧ ∃ n, t.id = indexed op n) :
    Moves s s' ws op (tally (·.credits) rows) := by
  have husage := fun t ht => CreditLotTransaction.isUsageOf_eq_true.mp (hrows t ht).1
  have hnotRefund : ∀ t ∈ rows, t.transactionType ≠ .REFUND := fun t ht => by
    rw [(husage t ht).2.1]
    nofun
  have hfresh : ∀ t ∈ rows, ¬ s.Refunded ws t.id := by
    intro t ht
    obtain ⟨n, hn⟩ := (hrows t ht).2
    rw [hn]
    exact not_refunded_new hkept hnone
  refine ⟨hkept', h.wholeRefunds hwhole hnotRefund fun t ht _ => (husage t ht).1 ▸ hfresh t ht,
    fun ws' op' hother => h.netUsage_eq hnotRefund fun t ht => ?_, ?_⟩
  · refine Bool.eq_false_iff.mpr fun hof => hother ?_
    obtain ⟨hws, -, hop⟩ := CreditLotTransaction.isUsageOf_eq_true.mp hof
    exact ⟨hws.symm.trans (husage t ht).1, hop.symm.trans (husage t ht).2.2⟩
  · rw [netUsage, h.usagesOf, hnone, List.nil_append,
      List.filter_eq_self.mpr fun t ht => (hrows t ht).1]
    refine tally_congr fun t ht => ?_
    rw [h.openCredits_eq hnotRefund, openCredits_of_not_refunded (hfresh t ht)]

/-- What happens once the lots that are due have expired happens to the ledger before. -/
theorem Moves.of_sameUsage {s₁ : MemoryCreditLedger} {net : Int} (hsame : SameUsage s s₁)
    (h : Moves s₁ s' ws op net) : Moves s s' ws op net where
  kept := h.kept
  whole := h.whole
  others ws' op' hother := by
    rw [← hsame.usagesOf, ← hsame.netUsage]
    exact h.others ws' op' hother
  net := h.net

theorem keeps_of_writes {α : Type} {x : LedgerM α} (hkept : WellKept s)
    (h : Writes (Posting host fun _ => True) x s) : Keeps WellKept x s :=
  (writes_iff.mp h).mono (fun _ _ hchain => hkept.chain hchain) fun _ _ hchain =>
    hkept.chain hchain

/-- Of a new operation, as long as the book stays well kept. -/
theorem consume_moves (hkept : WellKept s) (hwhole : WholeRefunds s) {input : ConsumeCreditsInput}
    (hop : normalizeCreditConsumeIdempotencyKey input.transactionId = .ok op)
    (hnone : s.usagesOf input.workspaceId op = []) :
    Wp (MeiyeAgent.consume host input) s (fun _ s' => WellKept s' →
      Moves s s' input.workspaceId op input.credits) (fun _ _ => True) := by
  have hreplay : s.transactions.filter (·.isUsageOf input.workspaceId op) = [] := hnone
  simp only [MeiyeAgent.consume, wp_bind, wp_check, wp_get]
  refine ⟨fun _ _ => ⟨fun _ _ => ⟨fun op' hop' => ?_, fun _ _ => trivial⟩, fun _ _ => trivial⟩,
    fun _ _ => trivial⟩
  obtain rfl := Except.ok.inj (hop.symm.trans hop')
  rw [if_neg (not_not.mpr hreplay), wp_bind]
  refine ((sameUsage_expireLots _).and (keeps_of_writes hkept (writes_expireLots hkept _))).mono
    (fun _ s₁ hs₁ => ?_) fun _ _ _ => trivial
  obtain ⟨hsame, hkept₁⟩ := hs₁
  simp only [wp_bind, wp_get, wp_ite, wp_throw]
  refine ⟨fun _ => trivial, fun htotal => chargeEach_appends.mono (fun _ s' hs' hkept' => ?_)
    fun _ _ _ => trivial⟩
  obtain ⟨rows, hrows, hcredits, hall⟩ := hs'
  have hmoves := moves_charged hkept₁ hkept' (hsame.whole hwhole)
    ((hsame.usagesOf _ _).trans hnone) hrows hall
  rw [hcredits, not_not.mp htotal] at hmoves
  exact hmoves.of_sameUsage hsame

/-- **A new operation uses what it asked for.** -/
theorem consume_net (hkept : WellKept s) (hwhole : WholeRefunds s) {input : ConsumeCreditsInput}
    (hop : normalizeCreditConsumeIdempotencyKey input.transactionId = .ok op)
    (hnone : s.usagesOf input.workspaceId op = []) :
    Wp (MeiyeAgent.consume host input) s
      (fun _ s' => Moves s s' input.workspaceId op input.credits) (fun _ _ => True) :=
  ((keeps_of_writes hkept (writes_consume hkept input)).and
    (consume_moves hkept hwhole hop hnone)).mono (fun _ _ h => h.2 h.1) fun _ _ _ => trivial

/-! ## Refunds -/

/-- What a refund in full of the rows has done. -/
structure RefundsAll (s s' : MemoryCreditLedger) (ws : String)
    (rest : List CreditLotTransaction) : Prop where
  intro ::
  appends : ∃ rows, Appends s s' rows ∧ ∀ t ∈ rows, t.workspaceId = ws ∧
    t.transactionType = .REFUND ∧ ∃ u ∈ rest, t.relatedTransactionId = some u.id
  settled : ∀ u ∈ rest, s'.openCredits ws u = 0

/-- A refund of other rows leaves what was open of this one. -/
theorem openCredits_of_others {rest : List CreditLotTransaction} (h : Appends s s' rows)
    (hrows : ∀ t ∈ rows, t.workspaceId = ws ∧ t.transactionType = .REFUND ∧
      ∃ u ∈ rest, t.relatedTransactionId = some u.id) {ws' : String}
    (hother : ws' = ws → ∀ u' ∈ rest, u'.id ≠ u.id) :
    s'.openCredits ws' u = s.openCredits ws' u ∧ (s'.Refunded ws' u.id ↔ s.Refunded ws' u.id) := by
  have hnone : ∀ t ∈ rows, ¬ t.isRefundOf ws' u.id = true := by
    intro t ht hrefund
    obtain ⟨hws, -, hrelated⟩ := CreditLotTransaction.isRefundOf_eq_true.mp hrefund
    obtain ⟨hws', -, u', hu', hrelated'⟩ := hrows t ht
    exact hother (hws.symm.trans hws') u' hu' (Option.some.inj (hrelated'.symm.trans hrelated))
  refine ⟨?_, ?_⟩
  · rw [h.openCredits, List.filter_eq_nil_iff.mpr hnone, tally_nil, sub_zero]
  · rw [h.refunded]
    exact or_iff_left fun ⟨t, ht, hrefund⟩ => hnone t ht hrefund

theorem refundRow_appends {input : RefundUsageInput} {index : Nat} {credits : Int} :
    Wp (refundRow host input index u credits) s (fun t s' => Appends s s' [t] ∧
      t.workspaceId = input.workspaceId ∧ t.transactionType = .REFUND ∧
      t.relatedTransactionId = some u.id ∧ t.credits = credits) (fun _ _ => True) := by
  simp only [refundRow, wp_bind, wp_get]
  split
  · rw [wp_throw]
    trivial
  · simp only [wp_bind, wp_ite, wp_set, wp_pure]
    exact ⟨fun _ => ⟨⟨rfl⟩, rfl, rfl, rfl, rfl⟩, fun _ => ⟨⟨rfl⟩, rfl, rfl, rfl, rfl⟩⟩

/-- The refund of one row, and of the rows after it. -/
theorem RefundsAll.cons {s₁ : MemoryCreditLedger} {t row : CreditLotTransaction}
    {rest : List CreditLotTransaction} (ht : Appends s s₁ [t]) (hws : t.workspaceId = ws)
    (htype : t.transactionType = .REFUND) (hrelated : t.relatedTransactionId = some row.id)
    (hrow : s₁.openCredits ws row = 0) (hne : ∀ u ∈ rest, row.id ≠ u.id)
    (h : RefundsAll s₁ s' ws rest) : RefundsAll s s' ws (row :: rest) := by
  obtain ⟨⟨rows, hrows, hall⟩, hsettled⟩ := h
  refine ⟨⟨t :: rows, ⟨?_⟩, List.forall_mem_cons.mpr ⟨⟨hws, htype, row, List.mem_cons_self,
    hrelated⟩, fun t' ht' => ?_⟩⟩, List.forall_mem_cons.mpr ⟨?_, hsettled⟩⟩
  · rw [hrows.transactions, ht.transactions, List.append_assoc]
    rfl
  · obtain ⟨hws', htype', u, hu, hrelated'⟩ := hall t' ht'
    exact ⟨hws', htype', u, List.mem_cons_of_mem _ hu, hrelated'⟩
  · rw [(openCredits_of_others hrows hall fun _ u hu => (hne u hu).symm).1, hrow]

/-- **The loop of a refund in full settles its rows**, one after the other. -/
theorem refundEach_all {input : RefundUsageInput} :
    ∀ {rest : List CreditLotTransaction} {index : Nat} {s : MemoryCreditLedger},
      (rest.Pairwise fun a b => a.id ≠ b.id) →
      (∀ u ∈ rest, s.Refunded input.workspaceId u.id → s.openCredits input.workspaceId u = 0) →
      Wp (refundEach host input none index rest) s (fun answer s' => answer.2 = none ∧
        RefundsAll s s' input.workspaceId rest) (fun _ _ => True)
  | [], index, s, _, _ => by
    rw [refundEach, wp_pure]
    exact ⟨rfl, ⟨[], ⟨(List.append_nil _).symm⟩, fun _ h => absurd h List.not_mem_nil⟩,
      fun _ h => absurd h List.not_mem_nil⟩
  | row :: rest, index, s, hdistinct, hwhole => by
    obtain ⟨hne, hrest⟩ := List.pairwise_cons.mp hdistinct
    obtain ⟨hrow, hwholeRest⟩ := List.forall_mem_cons.mp hwhole
    rw [refundEach, if_neg (by rintro ⟨⟩), wp_bind, wp_get]
    cases hfind : s.transactions.find? (·.isRefundOf input.workspaceId row.id) with
    | some existing =>
      simp only [wp_bind, wp_pure]
      refine (refundEach_all hrest hwholeRest).mono (fun answer s' h => ?_) fun _ _ _ => trivial
      obtain ⟨hnone, ⟨rows, hrows, hall⟩, hsettled⟩ := h
      refine ⟨hnone, ⟨rows, hrows, fun t ht => ?_⟩, List.forall_mem_cons.mpr ⟨?_, hsettled⟩⟩
      · obtain ⟨hws, htype, u, hu, hrelated⟩ := hall t ht
        exact ⟨hws, htype, u, List.mem_cons_of_mem _ hu, hrelated⟩
      · rw [(openCredits_of_others hrows hall fun _ u hu => (hne u hu).symm).1]
        exact hrow (refunded_iff_find.mpr ⟨existing, hfind⟩)
    | none =>
      simp only [wp_bind, wp_pure]
      refine refundRow_appends.mono (fun t s₁ h => ?_) fun _ _ _ => trivial
      obtain ⟨ht, hws, htype, hrelated, hcredits⟩ := h
      have hall : ∀ t' ∈ [t], t'.workspaceId = input.workspaceId ∧ t'.transactionType = .REFUND ∧
          ∃ u ∈ [row], t'.relatedTransactionId = some u.id := fun t' ht' => by
        rw [List.mem_singleton.mp ht']
        exact ⟨hws, htype, row, List.mem_cons_self, hrelated⟩
      have hopen : ¬ s.Refunded input.workspaceId row.id := by
        rw [refunded_iff_find, hfind]
        simp
      have hrow₁ : s₁.openCredits input.workspaceId row = 0 := by
        have hof : t.isRefundOf input.workspaceId row.id = true :=
          CreditLotTransaction.isRefundOf_eq_true.mpr ⟨hws, htype, hrelated⟩
        rw [ht.openCredits, openCredits_of_not_refunded hopen, List.filter_cons_of_pos hof]
        simp [hcredits, refundAmount]
      -- the rows still to come are open, or settled, as they were
      refine (refundEach_all hrest fun u hu hrefunded => ?_).mono (fun answer s' h => ?_)
        fun _ _ _ => trivial
      · obtain ⟨hopen₁, hrefunded₁⟩ := openCredits_of_others (u := u) ht hall fun _ u' hu' => by
          rw [List.mem_singleton.mp hu']
          exact hne u hu
        rw [hopen₁]
        exact hwholeRest u hu (hrefunded₁.mp hrefunded)
      · exact ⟨h.1, .cons ht hws htype hrelated hrow₁ hne h.2⟩

theorem RefundsAll.moves (hkept : WellKept s) (hkept' : WellKept s') (hwhole : WholeRefunds s)
    (h : RefundsAll s s' ws (s.usagesOf ws op)) : Moves s s' ws op 0 := by
  obtain ⟨⟨rows, hrows, hall⟩, hsettled⟩ := h
  have husages (ws' op' : String) : s'.usagesOf ws' op' = s.usagesOf ws' op' := by
    rw [hrows.usagesOf, List.filter_eq_nil_iff.mpr fun t ht husage => ?_, List.append_nil]
    obtain ⟨-, htype, -⟩ := hall t ht
    exact nomatch htype.symm.trans (CreditLotTransaction.isUsageOf_eq_true.mp husage).2.1
  -- a USAGE row of another operation has another id than those refunded
  have hothers : ∀ u ∈ s.transactions, u.transactionType = .USAGE →
      ¬ (u.workspaceId = ws ∧ u.operationId = op) →
        s'.openCredits u.workspaceId u = s.openCredits u.workspaceId u ∧
          (s'.Refunded u.workspaceId u.id ↔ s.Refunded u.workspaceId u.id) := by
    intro u hu husage hother
    refine openCredits_of_others hrows hall fun hws u' hu' hid => ?_
    obtain ⟨hmem, hws', husage', hop⟩ := mem_usagesOf.mp hu'
    obtain rfl := hkept.usage_eq hmem hu husage' husage (hws'.trans hws.symm) hid
    exact hother ⟨hws, hop⟩
  refine ⟨hkept', fun ws' u hu hws' husage hrefunded => ?_, fun ws' op' hother => ?_, ?_⟩
  · subst hws'
    rw [hrows.transactions, List.mem_append] at hu
    rcases hu with hu | hu
    · by_cases hsame : u.workspaceId = ws ∧ u.operationId = op
      · rw [hsame.1]
        exact hsettled u (mem_usagesOf.mpr ⟨hu, hsame.1, husage, hsame.2⟩)
      · obtain ⟨hopen, hiff⟩ := hothers u hu husage hsame
        rw [hopen]
        exact hwhole _ u hu rfl husage (hiff.mp hrefunded)
    · exact nomatch (hall u hu).2.1.symm.trans husage
  · refine ⟨husages ws' op', ?_⟩
    rw [netUsage, netUsage, husages]
    refine tally_congr fun u hu => ?_
    obtain ⟨hmem, rfl, husage, rfl⟩ := mem_usagesOf.mp hu
    exact (hothers u hmem husage hother).1
  · rw [netUsage, husages]
    exact tally_zero hsettled

/-- **A refund in full leaves nothing used.** -/
theorem refund_net (hkept : WellKept s) (hwhole : WholeRefunds s) {input : RefundUsageInput}
    (hcredits : input.credits = none)
    (hop : normalizeCreditConsumeIdempotencyKey input.usageOperationId = .ok op) :
    Wp (MeiyeAgent.refundUsageOperation host input) s
      (fun _ s' => Moves s s' input.workspaceId op 0) (fun _ _ => True) := by
  have hwrites : Writes (Posting host fun _ => True)
      (MeiyeAgent.refundUsageOperation host input) s :=
    writes_refundUsageOperation hkept input fun _ _ => trivial
  have hall : Wp (MeiyeAgent.refundUsageOperation host input) s (fun _ s' =>
      RefundsAll s s' input.workspaceId (s.usagesOf input.workspaceId op)) (fun _ _ => True) := by
    simp only [MeiyeAgent.refundUsageOperation, wp_bind, wp_check, wp_get]
    refine ⟨fun op' hop' => ?_, fun _ _ => trivial⟩
    have hsame : op' = op := by
      simp only [checkRefund, bind_eq_ok] at hop'
      obtain ⟨-, -, -, -, hop'⟩ := hop'
      exact Except.ok.inj (hop'.symm.trans hop)
    rw [hsame, hcredits]
    refine (refundEach_all (hkept.usagesOf_distinct _ _) fun u hu hrefunded => ?_).mono
      (fun answer s' h => ?_) fun _ _ _ => trivial
    · obtain ⟨hmem, hws, husage, -⟩ := mem_usagesOf.mp hu
      exact hwhole _ u hmem hws husage hrefunded
    · obtain ⟨refunds, left⟩ := answer
      obtain ⟨rfl, hrefunds⟩ := h
      rw [wp_pure]
      exact hrefunds
  exact ((keeps_of_writes hkept hwrites).and hall).mono
    (fun _ _ h => h.2.moves hkept h.1 hwhole) fun _ _ _ => trivial

end MeiyeAgent
