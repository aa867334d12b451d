import MeiyeAgent.CreditBilling.LedgerSafety

/-!
# CreditBilling/Revocation — what an upgrade revokes stays revoked, if the revocation covers it

Revoking the lots of a subscription writes an EXPIRE row for what **remained** on each.  A lot is
`Spent` when it holds nothing and nothing can come back to it: an EXPIRE row bars refunds, and so
does the absence of an unanswered usage.  No posting revives a spent lot (`Frozen.posting`).

* `staysRevoked_run` — a revocation that `Covers` every lot of the subscription freezes them all.
* A lot that was used up holds nothing to expire and gets no row: its usages can be refunded after
  the revocation, and the refund is spendable.
-/

namespace MeiyeAgent

open Effect Table Text Relation MemoryCreditLedger

/-! ## Lots nothing comes back to -/

/-- An unanswered usage of the lot. -/
def OpenUsage (s : MemoryCreditLedger) (ws lotId : String) : Prop :=
  ∃ t ∈ s.transactions, t.workspaceId = ws ∧ t.transactionType = .USAGE ∧ t.lotId = lotId ∧
    ¬ s.Refunded ws t.id

instance (s : MemoryCreditLedger) (ws lotId : String) : Decidable (OpenUsage s ws lotId) :=
  inferInstanceAs (Decidable (∃ t ∈ s.transactions, _))

/-- Refunds to the lot are barred: it has an EXPIRE row, or no usage left to refund. -/
def Barred (s : MemoryCreditLedger) (ws lotId : String) : Prop :=
  s.ExplicitlyExpired ws lotId ∨ ¬ OpenUsage s ws lotId

instance (s : MemoryCreditLedger) (ws lotId : String) : Decidable (Barred s ws lotId) :=
  inferInstanceAs (Decidable (_ = true ∨ ¬ _))

/-- The USAGE rows charged to a lot. -/
def MemoryCreditLedger.chargesOn (s : MemoryCreditLedger) (ws lotId : String) :
    List CreditLotTransaction :=
  s.transactions.filter fun t =>
    t.workspaceId == ws && t.transactionType == .USAGE && t.lotId == lotId

/-- **The lot is spent, with the charges `rows`**: it is a lot of the book, holds nothing, and
nothing comes back to it. -/
structure Frozen (ws lotId : String) (rows : List CreditLotTransaction) (s : MemoryCreditLedger) :
    Prop where
  known : (ws, lotId) ∈ s.lots.map (·.key)
  empty : ∀ l ∈ s.lots, l.workspaceId = ws → l.id = lotId → l.remainingCredits ≤ 0
  barred : Barred s ws lotId
  charges : s.chargesOn ws lotId = rows

section Frozen

variable {host : Host} {ok : Int → Prop} {s s' : MemoryCreditLedger} {ws lotId : String}
  {rows : List CreditLotTransaction} {t : CreditLotTransaction}

theorem chargesOn_push (ht : t.transactionType ≠ .USAGE ∨ ¬ (t.workspaceId = ws ∧ t.lotId = lotId)) :
    (s.push t).chargesOn ws lotId = s.chargesOn ws lotId := by
  rw [chargesOn, push_transactions, List.filter_append, List.filter_singleton]
  have hout : (t.workspaceId == ws && t.transactionType == .USAGE && t.lotId == lotId) = false := by
    simp only [Bool.eq_false_iff, ne_eq, Bool.and_eq_true, beq_iff_eq]
    rintro ⟨⟨hws, hu⟩, hid⟩
    exact ht.elim (fun h => h hu) fun h => h ⟨hws, hid⟩
  rw [hout]
  exact List.append_nil _

/-- A bar is never lifted by a row that charges nothing to the lot. -/
theorem Barred.push (h : Barred s ws lotId)
    (ht : t.transactionType ≠ .USAGE ∨ ¬ (t.workspaceId = ws ∧ t.lotId = lotId)) :
    Barred (s.push t) ws lotId := by
  rcases h with h | h
  · refine .inl ?_
    rw [ExplicitlyExpired, push_transactions, List.any_append, h, Bool.true_or]
  · refine .inr fun ⟨u, hu, hws, husage, hid, hopen⟩ => ?_
    rcases List.mem_append.mp hu with hu | hu
    · exact h ⟨u, hu, hws, husage, hid, fun href => hopen (refunded_push.mpr (.inl href))⟩
    · obtain rfl := List.mem_singleton.mp hu
      exact ht.elim (fun h => h husage) fun h => h ⟨hws, hid⟩

variable {lot : CreditGrantLot}

/-- A row pushed with a move on another lot, or with no move. -/
theorem Frozen.push_move (h : Frozen ws lotId rows s) (hk : WellKept s) {ws' id' : String} {r : Int}
    (hlot : s.lots.find? (·.isLot ws' id') = some lot) (hne : ¬ (ws' = ws ∧ id' = lotId))
    (ht : t.transactionType ≠ .USAGE ∨ ¬ (t.workspaceId = ws ∧ t.lotId = lotId)) :
    Frozen ws lotId rows ((s.setRemaining ws' id' r).push t) where
  known := by
    rw [push_lots, setRemaining_keys]
    exact h.known
  empty l hl hws hid := by
    rcases mem_setRemaining hk hlot hl with ⟨hl, -⟩ | rfl
    · exact h.empty l hl hws hid
    · obtain ⟨hws', hid'⟩ := isLot_eq_true.mp (List.find?_some hlot)
      exact absurd ⟨hws'.symm.trans hws, hid'.symm.trans hid⟩ hne
  barred := Barred.push (s := s.setRemaining ws' id' r) h.barred ht
  charges := (chargesOn_push (s := s.setRemaining ws' id' r) ht).trans h.charges

theorem Frozen.push_row (h : Frozen ws lotId rows s)
    (ht : t.transactionType ≠ .USAGE ∨ ¬ (t.workspaceId = ws ∧ t.lotId = lotId)) :
    Frozen ws lotId rows (s.push t) where
  known := h.known
  empty := h.empty
  barred := h.barred.push ht
  charges := (chargesOn_push ht).trans h.charges

/-- **No posting revives a spent lot.** -/
theorem Frozen.posting (hp : Posting host ok s s') (hk : WellKept s)
    (h : Frozen ws lotId rows s) : Frozen ws lotId rows s' := by
  have hheld : ∀ lot ∈ s.lots, 0 < lot.remainingCredits →
      ¬ (lot.workspaceId = ws ∧ lot.id = lotId) := fun lot hlot hpos heq =>
    absurd (h.empty lot hlot heq.1 heq.2) (by omega)
  cases hp with
  | grant input key hinput hnew =>
    have hrow : Frozen ws lotId rows (s.push (grantTransaction input (grantedLot input key) key)) :=
      h.push_row (.inl (by simp [grantTransaction]))
    refine ⟨?_, fun l hl hws hid => ?_, hrow.barred, hrow.charges⟩
    · rw [List.map_append]
      exact List.mem_append_left _ h.known
    · rcases List.mem_append.mp hl with hl | hl
      · exact h.empty l hl hws hid
      · obtain rfl := List.mem_singleton.mp hl
        obtain ⟨l', hl', hkey⟩ := List.mem_map.mp h.known
        have hnew' := (hnew l' hl' ((congrArg Prod.fst hkey).trans hws.symm)).1
        exact absurd ((congrArg Prod.snd hkey).trans hid.symm) hnew'
  | usage input op index lot amount hlot hpos hroom _ =>
    obtain ⟨hws, -⟩ := isLot_eq_true.mp (List.find?_some hlot)
    have hne := hheld lot (List.mem_of_find?_eq_some hlot) (by omega)
    rw [hws] at hne
    exact h.push_move hk hlot hne (.inr hne)
  | refund input op index pre post row lot amount hrows hpre hopen hlot hlive hle hok =>
    obtain ⟨hrow, hrws, hru, -⟩ := mem_usagesOf.mp
      (hrows ▸ by simp : row ∈ s.usagesOf input.workspaceId op)
    obtain ⟨hws, hid⟩ := isLot_eq_true.mp (List.find?_some hlot)
    refine h.push_move hk hlot (fun heq => ?_) (.inl (by simp [refundTransaction]))
    obtain ⟨hws', hid'⟩ := heq
    rcases h.barred with hexp | hclosed
    · rw [← hws', ← hid', ← hid] at hexp
      exact hlive hexp
    · exact hclosed ⟨row, hrow, hrws.trans hws', hru, hid', hws' ▸ hopen⟩
  | refundUncredited input op index pre post row lot amount hrows hpre hopen hlot hle hok =>
    exact h.push_row (.inl (by simp [refundTransaction]))
  | expire family actorId correlationId createdAt lot hlot hpos =>
    exact h.push_move hk hlot (hheld lot (List.mem_of_find?_eq_some hlot) hpos)
      (.inl (by simp [expireTransaction]))

theorem Frozen.chain (hk : WellKept s) (h : Frozen ws lotId rows s)
    (hchain : ReflTransGen (Posting host ok) s s') : Frozen ws lotId rows s' :=
  (chain_invariant (fun s => WellKept s ∧ Frozen ws lotId rows s)
    (fun _ _ hp hI => ⟨hI.1.posting hp, hI.2.posting hp hI.1⟩) hchain ⟨hk, h⟩).2

/-- **No call revives a spent lot.** -/
theorem Frozen.run (hk : WellKept s) (h : Frozen ws lotId rows s) (calls : List LedgerCall) :
    Frozen ws lotId rows (runAll (LedgerCall.step host) calls s) := by
  refine (runAll_invariant (fun s => WellKept s ∧ Frozen ws lotId rows s) ?_ calls ⟨hk, h⟩).2
  intro s call hI
  have hchain : ReflTransGen (Posting host fun _ => True) s (call.step host s) :=
    chain_call hI.1 call fun _ _ => trivial
  exact ⟨hI.1.step call, hI.2.chain hI.1 hchain⟩

end Frozen

/-! ## Revoking a subscription -/

/-- **The revocation covers the lot**: there is something to expire, or nothing left to refund. -/
def Covers (s : MemoryCreditLedger) (lot : CreditGrantLot) : Prop :=
  0 < lot.remainingCredits ∨ Barred s lot.workspaceId lot.id

instance (s : MemoryCreditLedger) (lot : CreditGrantLot) : Decidable (Covers s lot) :=
  inferInstanceAs (Decidable (_ < _ ∨ Barred s lot.workspaceId lot.id))

/-- **Revoked credits stay revoked**: after the calls `before`, the revocation and the calls
`after`, every lot of the subscription that existed at the revocation holds nothing, and has been
charged nothing since. -/
def StaysRevoked (host : Host) (before : List LedgerCall) (input : ExpireSubscriptionLotsInput)
    (after : List LedgerCall) : Prop :=
  ∀ lot ∈ (runLedger host before).lots,
    lot.isRenewalOf input.workspaceId input.subscriptionId = true →
      (∀ l ∈ (runLedger host (before ++ .expireSubscriptionLots input :: after)).lots,
        l.workspaceId = lot.workspaceId → l.id = lot.id → l.remainingCredits ≤ 0) ∧
      (runLedger host (before ++ .expireSubscriptionLots input :: after)).chargesOn
        lot.workspaceId lot.id = (runLedger host before).chargesOn lot.workspaceId lot.id

section Revoking

variable {host : Host} {s : MemoryCreditLedger}

/-- A lot just expired is spent. -/
theorem frozen_expired (hk : WellKept s)
    (hlot : s.lots.find? (·.isLot lot.workspaceId lot.id) = some lot)
    (family actorId correlationId createdAt : String) :
    Frozen lot.workspaceId lot.id (s.chargesOn lot.workspaceId lot.id)
      ((s.setRemaining lot.workspaceId lot.id 0).push
        (expireTransaction family lot actorId correlationId createdAt)) where
  known := WellKept.key_mem hlot 0
  empty l hl hws hid := by
    rcases mem_setRemaining hk hlot hl with ⟨-, hne⟩ | rfl
    · exact absurd ⟨hws, hid⟩ hne
    · exact le_refl _
  barred := by
    refine .inl ?_
    rw [ExplicitlyExpired, push_transactions, List.any_append, List.any_cons]
    simp [expireTransaction, CreditLotTransaction.isExpiryOf]
  charges := chargesOn_push (s := s.setRemaining _ _ _) (.inl (by simp [expireTransaction]))

/-- **Expiring a list of lots freezes each of them**: the first by its own posting, and every later
posting keeps it so. -/
theorem frozen_expireAll (host : Host) {family actorId correlationId createdAt : String} :
    ∀ {lots : List CreditGrantLot} {s : MemoryCreditLedger}, WellKept s → Expirable s lots →
      ∀ lot ∈ lots, Frozen lot.workspaceId lot.id (s.chargesOn lot.workspaceId lot.id)
        (expireAll family actorId correlationId createdAt lots s)
  | [], _, _, _, _, hlot => absurd hlot List.not_mem_nil
  | head :: lots, s, hk, h, lot, hlot => by
    obtain ⟨s₁, hs₁⟩ : ∃ s₁, s₁ = (s.setRemaining head.workspaceId head.id 0).push
      (expireTransaction family head actorId correlationId createdAt) := ⟨_, rfl⟩
    have hp : Posting host (fun _ => True) s s₁ :=
      hs₁ ▸ .expire family actorId correlationId createdAt head (h.found head List.mem_cons_self)
        (h.positive head List.mem_cons_self)
    have hrest : Expirable s₁ lots := hs₁ ▸ h.tail
    have hchain : ReflTransGen (Posting host fun _ => True) s₁
        (expireAll family actorId correlationId createdAt lots s₁) :=
      expireAll_postings family actorId correlationId createdAt hrest
    have hall : expireAll family actorId correlationId createdAt (head :: lots) s =
        expireAll family actorId correlationId createdAt lots s₁ := hs₁ ▸ rfl
    rw [hall]
    rcases List.mem_cons.mp hlot with rfl | hlot
    · have hfirst := frozen_expired hk (h.found _ List.mem_cons_self) family actorId correlationId
        createdAt
      rw [← hs₁] at hfirst
      exact hfirst.chain (hk.posting hp) hchain
    · have hcharges : s₁.chargesOn lot.workspaceId lot.id = s.chargesOn lot.workspaceId lot.id :=
        hs₁ ▸ chargesOn_push (.inl (by simp [expireTransaction]))
      rw [← hcharges]
      exact frozen_expireAll host (hk.posting hp) hrest lot hlot

/-- **A revocation freezes every lot it covers.** -/
theorem frozen_expireSubscriptionLots (hk : WellKept s) (input : ExpireSubscriptionLotsInput)
    (hlot : lot ∈ s.lots) (hrenewal : lot.isRenewalOf input.workspaceId input.subscriptionId = true)
    (hcovers : Covers s lot) : Frozen lot.workspaceId lot.id (s.chargesOn lot.workspaceId lot.id)
      ((LedgerCall.expireSubscriptionLots input).step host s) := by
  obtain ⟨lots, hlots⟩ : ∃ lots, lots = s.lots.filter fun lot =>
      lot.isRenewalOf input.workspaceId input.subscriptionId && 0 < lot.remainingCredits :=
    ⟨_, rfl⟩
  have hstep : (LedgerCall.expireSubscriptionLots input).step host s =
      expireAll "expire-subscription" input.actorId input.correlationId input.createdAt lots s := by
    simp only [LedgerCall.step, final, MeiyeAgent.expireSubscriptionLots, get_bind, expireEach_eq,
      hlots]
  have hexpirable : Expirable s lots := expirable_of_perm hk (List.Perm.of_eq hlots) fun l hl => by
    simp only [Bool.and_eq_true, decide_eq_true_eq] at hl
    exact hl.2
  rw [hstep]
  by_cases hpos : 0 < lot.remainingCredits
  · exact frozen_expireAll host hk hexpirable lot
      (hlots ▸ List.mem_filter.mpr ⟨hlot, by simp [hrenewal, hpos]⟩)
  · have hfrozen : Frozen lot.workspaceId lot.id (s.chargesOn lot.workspaceId lot.id) s := by
      refine ⟨List.mem_map.mpr ⟨lot, hlot, rfl⟩, fun l hl hws hid => ?_, ?_, rfl⟩
      · obtain rfl := List.inj_on_of_nodup_map hk.lotKeys hl hlot (Prod.ext hws hid)
        omega
      · exact hcovers.resolve_left hpos
    have hchain : ReflTransGen (Posting host fun _ => True) s _ :=
      expireAll_postings "expire-subscription" input.actorId input.correlationId input.createdAt
        hexpirable
    exact hfrozen.chain hk hchain

end Revoking

/-- **Revoked credits stay revoked** in every run whose revocation covers every lot of the
subscription. -/
theorem staysRevoked_run (host : Host) (before : List LedgerCall)
    (input : ExpireSubscriptionLotsInput) (after : List LedgerCall)
    (h : ∀ lot ∈ (runLedger host before).lots,
      lot.isRenewalOf input.workspaceId input.subscriptionId = true →
        Covers (runLedger host before) lot) :
    StaysRevoked host before input after := by
  intro lot hlot hrenewal
  have hk : WellKept (runLedger host before) := wellKept_run before
  have hrevoked : Frozen lot.workspaceId lot.id _
      ((LedgerCall.expireSubscriptionLots input).step host (runLedger host before)) :=
    frozen_expireSubscriptionLots hk input hlot hrenewal (h lot hlot hrenewal)
  have hfrozen : Frozen lot.workspaceId lot.id _ (runAll (LedgerCall.step host) after
      ((LedgerCall.expireSubscriptionLots input).step host (runLedger host before))) :=
    hrevoked.run (hk.step _) after
  rw [runLedger, runAll_append]
  exact ⟨hfrozen.empty, hfrozen.charges⟩

/-! ## A lot that was used up -/

/-- A renewal of subscription `sub`. -/
def sampleRenewal (id : String) (credits : Int) : GrantCreditsInput :=
  { sampleGrant id credits with
    transactionType := .SUBSCRIPTION_RENEWAL
    sourceRef := some "sub" }

def sampleRevocation : ExpireSubscriptionLotsInput where
  workspaceId := "shop"
  subscriptionId := "sub"
  actorId := "system"
  correlationId := "upgrade"
  createdAt := "2026-02-01T12:00:00.000Z"

/-- A lot partly used is revoked, and its usage refunded after that. -/
theorem staysRevoked_run_partly :
    StaysRevoked isoHost [.grant (sampleRenewal "a" 5), .consume (sampleConsume "task" 3)]
      sampleRevocation [.refundUsageOperation (sampleRefund "r" "task" none)] :=
  staysRevoked_run isoHost _ _ _ (by decide +kernel)

/-- **A lot used up gets no EXPIRE row**, and the refund after the revocation is spendable. -/
theorem not_staysRevoked_used_up :
    ¬ ∀ before input after, StaysRevoked isoHost before input after := by
  intro h
  have hrefund := h [.grant (sampleRenewal "a" 5), .consume (sampleConsume "task" 5)]
    sampleRevocation [.refundUsageOperation (sampleRefund "r" "task" none)]
  unfold StaysRevoked at hrefund
  exact absurd hrefund (by decide +kernel)

end MeiyeAgent
