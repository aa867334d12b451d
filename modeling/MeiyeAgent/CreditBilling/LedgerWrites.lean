import MeiyeAgent.CreditBilling.Postings

/-!
# CreditBilling/LedgerWrites — every call of the ledger is a chain of postings

Operation by operation: `writes_grant`, `writes_consume`, `writes_refundUsageOperation`,
`writes_expireLots`, `writes_expireSubscriptionLots`, and over all of them `chain_call`.  The book
is well kept after every run (`wellKept_run`), so a property of the ledger is settled by looking at
the five postings.

The refund loop is the one operation whose amounts depend on the past: `repriced` lists them, from
the credits of each row and of the refund that already answers it.
-/

namespace MeiyeAgent

open Effect Table Greedy Text Relation MemoryCreditLedger

/-! ## What the checks leave behind -/

section Checks

variable {host : Host}

theorem assertCredits_ok {value : Int} {field : String} {u : Unit}
    (h : assertCredits value field = .ok u) : 0 < value ∧ value ≤ maxSafeInteger := by
  simp [assertCredits, isSafeInteger] at h
  omega

theorem assertTimestamp_ok {value field : String} {u : Unit}
    (h : assertTimestamp host value field = .ok u) : ∃ ms, host.dateParse value = some ms := by
  simp [assertTimestamp] at h
  exact Option.ne_none_iff_exists'.mp h.2

/-- A grant the ledger accepts has a positive amount, and its dates parse. -/
theorem assertGrantInput_ok {input : GrantCreditsInput} {u : Unit}
    (h : assertGrantInput host input = .ok u) : 0 < input.credits ∧
      (∃ ms, host.dateParse input.createdAt = some ms) ∧
      ∀ date, input.expirationDate = some date → ∃ ms, host.dateParse date = some ms := by
  simp only [assertGrantInput, guard_eq_ok, bind_eq_ok] at h
  obtain ⟨-, _, hcredits, _, hcreated, hexpiry⟩ := h
  refine ⟨(assertCredits_ok hcredits).1, assertTimestamp_ok hcreated, ?_⟩
  intro date hdate
  simp only [hdate, bind_eq_ok] at hexpiry
  obtain ⟨_, hparse, -⟩ := hexpiry
  exact assertTimestamp_ok hparse

end Checks

/-! ## Every call is a chain of postings -/

variable {host : Host} {ok : Int → Prop} {s : MemoryCreditLedger}

theorem writes_grant (input : GrantCreditsInput) :
    Writes (Posting host ok) (MeiyeAgent.grant host input) s := by
  simp only [Writes, MeiyeAgent.grant, wp_bind, wp_check, wp_get]
  refine ⟨fun _ hassert => ⟨fun key _ => ?_, fun _ _ => .refl⟩, fun _ _ => .refl⟩
  split
  · simp only [wp_ite, wp_pure, wp_throw]
    exact ⟨fun _ => .refl, fun _ => .refl⟩
  · next hnone =>
    simp only [wp_bind, wp_set, wp_pure]
    refine .single (.grant input key hassert fun lot hlot => ?_)
    simpa using List.find?_eq_none.mp hnone lot hlot

/-- The lots of `lots` emptied in turn: the ledger `expireEach` leaves. -/
def expireAll (family actorId correlationId createdAt : String) (lots : List CreditGrantLot)
    (s : MemoryCreditLedger) : MemoryCreditLedger :=
  lots.foldl (fun s lot => (s.setRemaining lot.workspaceId lot.id 0).push
    (expireTransaction family lot actorId correlationId createdAt)) s

/-- **Expiry never throws**: it leaves `expireAll` and returns the rows it pushed. -/
theorem expireEach_eq (family actorId correlationId createdAt : String) :
    ∀ (lots : List CreditGrantLot) (s : MemoryCreditLedger),
      expireEach family actorId correlationId createdAt lots s =
        .ok (lots.map fun lot => expireTransaction family lot actorId correlationId createdAt)
          (expireAll family actorId correlationId createdAt lots s)
  | [], _ => rfl
  | lot :: lots, s => by
    have ih := expireEach_eq family actorId correlationId createdAt lots
      ((s.setRemaining lot.workspaceId lot.id 0).push
        (expireTransaction family lot actorId correlationId createdAt))
    rw [expireEach, modify_bind]
    simp only [bind, EStateM.bind, ih]
    rfl

/-- The lots named are lots of the ledger, distinct, and none of them empty. -/
structure Expirable (s : MemoryCreditLedger) (lots : List CreditGrantLot) : Prop where
  found : ∀ lot ∈ lots, s.lots.find? (·.isLot lot.workspaceId lot.id) = some lot
  distinct : (lots.map (·.key)).Nodup
  positive : ∀ lot ∈ lots, 0 < lot.remainingCredits

theorem Expirable.tail {family actorId correlationId createdAt : String} {lot : CreditGrantLot}
    {lots : List CreditGrantLot} (h : Expirable s (lot :: lots)) :
    Expirable ((s.setRemaining lot.workspaceId lot.id 0).push
      (expireTransaction family lot actorId correlationId createdAt)) lots where
  found l hl := by
    rw [push_lots, find_setRemaining_ne]
    · exact h.found l (List.mem_cons_of_mem _ hl)
    · rintro ⟨hws, hid⟩
      exact (List.nodup_cons.mp h.distinct).1 (List.mem_map.mpr ⟨l, hl, Prod.ext hws hid⟩)
  distinct := (List.nodup_cons.mp h.distinct).2
  positive l hl := h.positive l (List.mem_cons_of_mem _ hl)

theorem expireAll_postings (family actorId correlationId createdAt : String) :
    ∀ {lots : List CreditGrantLot} {s : MemoryCreditLedger}, Expirable s lots →
      ReflTransGen (Posting host ok) s (expireAll family actorId correlationId createdAt lots s)
  | [], _, _ => .refl
  | _ :: _, _, h =>
    .head (.expire family actorId correlationId createdAt _ (h.found _ List.mem_cons_self)
        (h.positive _ List.mem_cons_self))
      (expireAll_postings family actorId correlationId createdAt h.tail)

/-- Expiry pushes no USAGE row. -/
theorem expireAll_usagesOf (family actorId correlationId createdAt ws op : String) :
    ∀ (lots : List CreditGrantLot) (s : MemoryCreditLedger),
      (expireAll family actorId correlationId createdAt lots s).usagesOf ws op = s.usagesOf ws op
  | [], _ => rfl
  | _ :: lots, s => by
    refine (expireAll_usagesOf family actorId correlationId createdAt ws op lots _).trans ?_
    rw [usagesOf_push]
    simp [expireTransaction, CreditLotTransaction.isUsageOf, usagesOf]

/-- Lots picked out of a well kept book, in any order. -/
theorem expirable_of_perm (h : WellKept s) {p : CreditGrantLot → Bool} {lots : List CreditGrantLot}
    (hperm : lots.Perm (s.lots.filter p)) (hp : ∀ lot, p lot = true → 0 < lot.remainingCredits) :
    Expirable s lots where
  found _ hlot := find_lot h (List.mem_of_mem_filter (hperm.mem_iff.mp hlot))
  distinct := ((hperm.map _).nodup_iff).mpr ((List.filter_sublist.map _).nodup h.lotKeys)
  positive lot hlot := hp lot (List.mem_filter.mp (hperm.mem_iff.mp hlot)).2

theorem writes_expireLots (h : WellKept s) (input : ExpireLotsInput) :
    Writes (Posting host ok) (MeiyeAgent.expireLots host input) s := by
  simp only [Writes, MeiyeAgent.expireLots, wp_bind, wp_check, wp_get]
  refine ⟨fun _ _ => ?_, fun _ _ => .refl⟩
  rw [Wp, expireEach_eq]
  refine expireAll_postings _ _ _ _ (expirable_of_perm h (sortBy_perm _ _) fun lot hlot => ?_)
  simp only [Bool.and_eq_true, decide_eq_true_eq] at hlot
  exact hlot.2

theorem writes_expireSubscriptionLots (h : WellKept s) (input : ExpireSubscriptionLotsInput) :
    Writes (Posting host ok) (MeiyeAgent.expireSubscriptionLots input) s := by
  simp only [Writes, MeiyeAgent.expireSubscriptionLots, wp_bind, wp_get]
  rw [Wp, expireEach_eq]
  refine expireAll_postings _ _ _ _ (expirable_of_perm h (.refl _) fun lot hlot => ?_)
  simp only [Bool.and_eq_true, decide_eq_true_eq] at hlot
  exact hlot.2

/-! ### Consumption -/

/-- The allocations fit the ledger: each names a lot that holds as much, and no lot twice. -/
structure Chargeable (s : MemoryCreditLedger) (ws : String) (allocations : List CreditAllocation) :
    Prop where
  found : ∀ a ∈ allocations, ∃ lot, s.lots.find? (·.isLot ws a.lotId) = some lot ∧
    0 < a.credits ∧ a.credits ≤ lot.remainingCredits
  distinct : (allocations.map (·.lotId)).Nodup

/-- **First-expired-first-out allocations fit the ledger** they are read from. -/
theorem chargeable_allocate (h : WellKept s) {ws : String} {p : CreditGrantLot → Bool}
    (hp : ∀ lot, p lot = true → lot.workspaceId = ws) (credits : Int) :
    Chargeable s ws (allocateCreditConsumption host (s.lots.filter p) credits) := by
  rw [allocateCreditConsumption]
  split
  · exact ⟨fun _ ha => absurd ha List.not_mem_nil, List.nodup_nil⟩
  next hcredits =>
  have hwant : 0 ≤ credits := by
    simp only [Bool.or_eq_true, decide_eq_true_eq, not_or] at hcredits
    omega
  obtain ⟨queue, hqueue⟩ : ∃ queue, queue = sortBy (compareCreditLotsForFefo host)
      ((s.lots.filter p).filter fun lot => 0 < lot.remainingCredits) := ⟨_, rfl⟩
  have hperm : queue.Perm ((s.lots.filter p).filter fun lot => 0 < lot.remainingCredits) :=
    hqueue ▸ sortBy_perm _ _
  have hmem : ∀ lot ∈ queue, lot ∈ s.lots ∧ lot.workspaceId = ws ∧ 0 < lot.remainingCredits := by
    intro lot hlot
    have hlot := List.mem_filter.mp (hperm.mem_iff.mp hlot)
    obtain ⟨hin, hplot⟩ := List.mem_filter.mp hlot.1
    exact ⟨hin, hp lot hplot, by simpa using hlot.2⟩
  have hkeys : (queue.map (·.key)).Nodup :=
    (hperm.map _).nodup_iff.mpr
      (((List.filter_sublist.trans List.filter_sublist).map _).nodup h.lotKeys)
  rw [← hqueue]
  refine ⟨?_, ?_⟩
  · intro a ha
    obtain ⟨⟨lot, amount⟩, hx, rfl⟩ := List.mem_map.mp ha
    have hlot : lot ∈ queue :=
      (greedy_sublist credits queue).subset (List.mem_map.mpr ⟨_, hx, rfl⟩)
    obtain ⟨hin, hws, -⟩ := hmem lot hlot
    obtain ⟨hpos, hle⟩ := greedy_amount hwant (fun l hl => (hmem l hl).2.2) _ hx
    exact ⟨lot, hws ▸ find_lot h hin, hpos, hle⟩
  · have hids : (queue.map (·.id)).Nodup := by
      refine List.Nodup.map_on (fun x hx y hy hid => ?_) hkeys.of_map
      have hws := (hmem x hx).2.1.trans (hmem y hy).2.1.symm
      exact List.inj_on_of_nodup_map hkeys hx hy (Prod.ext hws hid)
    have hsub : (((greedy (·.remainingCredits) credits queue).map Prod.fst).map (·.id)).Sublist
        (queue.map (·.id)) := (greedy_sublist credits queue).map _
    rw [List.map_map] at hsub ⊢
    exact hsub.nodup hids

theorem writes_chargeEach {input : ConsumeCreditsInput} {op : String} :
    ∀ {allocations : List CreditAllocation} {index : Nat} {s : MemoryCreditLedger},
      Chargeable s input.workspaceId allocations →
      (∀ t ∈ s.usagesOf input.workspaceId op, ∃ n < index, t.id = indexed op n) →
      Writes (Posting host ok) (chargeEach input op index allocations) s
  | [], _, _, _, _ => by
    simp only [Writes, chargeEach, wp_pure]
    exact .refl
  | a :: allocations, index, s, h, hfresh => by
    obtain ⟨lot, hlot, hpos, hle⟩ := h.found a List.mem_cons_self
    obtain ⟨-, hid⟩ := isLot_eq_true.mp (List.find?_some hlot)
    obtain ⟨s₁, hs₁⟩ : ∃ s₁, s₁ = (s.setRemaining input.workspaceId a.lotId
      (lot.remainingCredits - a.credits)).push
        (usageTransaction input op index lot.id a.credits) := ⟨_, rfl⟩
    have hpost : Posting host ok s s₁ := by
      rw [hs₁, ← hid]
      exact .usage input op index lot a.credits (hid ▸ hlot) hpos hle hfresh
    have hrest : Chargeable s₁ input.workspaceId allocations := by
      refine ⟨fun b hb => ?_, (List.nodup_cons.mp h.distinct).2⟩
      obtain ⟨l, hl, hb'⟩ := h.found b (List.mem_cons_of_mem _ hb)
      refine ⟨l, ?_, hb'⟩
      rw [hs₁, push_lots, find_setRemaining_ne, hl]
      rintro ⟨-, hsame⟩
      exact (List.nodup_cons.mp h.distinct).1 (List.mem_map.mpr ⟨b, hb, hsame⟩)
    have hfresh₁ : ∀ t ∈ s₁.usagesOf input.workspaceId op, ∃ n < index + 1, t.id = indexed op n := by
      intro t ht
      rw [hs₁, usagesOf_push] at ht
      rcases List.mem_append.mp ht with ht | ht
      · obtain ⟨n, hn, hid⟩ := hfresh t ht
        exact ⟨n, by omega, hid⟩
      · split at ht
        · rw [List.mem_singleton.mp ht]
          exact ⟨index, by omega, rfl⟩
        · exact absurd ht List.not_mem_nil
    have ih := writes_iff.mp (writes_chargeEach hrest hfresh₁)
    simp only [Writes, chargeEach, wp_bind, wp_get, hlot, wp_set, wp_pure, ← hs₁]
    exact Wp.mono ih (fun _ _ hc => .head hpost hc) (fun _ _ hc => .head hpost hc)

theorem writes_consume (h : WellKept s) (input : ConsumeCreditsInput) :
    Writes (Posting host ok) (MeiyeAgent.consume host input) s := by
  simp only [Writes, MeiyeAgent.consume, wp_bind, wp_check, wp_get]
  refine ⟨fun _ _ => ⟨fun _ _ => ⟨fun op _ => ?_, fun _ _ => .refl⟩, fun _ _ => .refl⟩,
    fun _ _ => .refl⟩
  rw [wp_ite, wp_ite, wp_throw, wp_pure]
  refine ⟨fun _ => ⟨fun _ => .refl, fun _ => .refl⟩, fun hreplay => ?_⟩
  have hnone : s.usagesOf input.workspaceId op = [] := by simpa [usagesOf] using hreplay
  have hexpired : Wp (MeiyeAgent.expireLots host
      ⟨input.workspaceId, input.createdAt, input.actorId, input.correlationId⟩) s
      (fun _ s' => ReflTransGen (Posting host ok) s s' ∧ s'.usagesOf input.workspaceId op = [])
      (fun _ s' => ReflTransGen (Posting host ok) s s') := by
    have hchain : Writes (Posting host ok) (MeiyeAgent.expireLots host
        ⟨input.workspaceId, input.createdAt, input.actorId, input.correlationId⟩) s :=
      writes_expireLots h _
    simp only [Writes, MeiyeAgent.expireLots, wp_bind, wp_check, wp_get] at hchain ⊢
    refine ⟨fun u hu => ?_, hchain.2⟩
    have hchain := hchain.1 u hu
    rw [Wp, expireEach_eq] at hchain ⊢
    exact ⟨hchain, (expireAll_usagesOf _ _ _ _ _ _ _ s).trans hnone⟩
  simp only [wp_bind, wp_get, wp_ite, wp_throw]
  refine hexpired.mono (fun _ s₁ hs₁ => ?_) fun _ _ hc => hc
  obtain ⟨hchain, hnone₁⟩ := hs₁
  refine ⟨fun _ => hchain, fun _ => ?_⟩
  have hkept := h.chain hchain
  have hfit : Chargeable s₁ input.workspaceId (allocateCreditConsumption host
      (s₁.lots.filter fun lot => lot.workspaceId == input.workspaceId &&
        lot.openAt host input.createdAt) input.credits) :=
    chargeable_allocate hkept (fun lot hlot => by simp at hlot; exact hlot.1) _
  exact Wp.mono (writes_iff.mp (writes_chargeEach hfit (by simp [hnone₁])))
    (fun _ _ hc => hchain.trans hc) fun _ _ hc => hchain.trans hc

/-! ### Refunds -/

/-- **The amounts a refund writes**, from what is left of the cumulative amount and, row by row,
the credits used and the credits already refunded. -/
def repriced : Option Int → List (Int × Option Int) → List Int
  | _, [] => []
  | remaining, (credits, refunded) :: rows =>
    if remaining = some 0 then []
    else
      match refunded with
      | some existing => repriced (remaining.map (· - existing)) rows
      | none =>
        let amount := refundAmount remaining credits
        amount :: repriced (remaining.map (· - amount)) rows

namespace MemoryCreditLedger

/-- A USAGE row as the refund loop sees it: its credits, and those of the refund answering it. -/
def rowFacts (s : MemoryCreditLedger) (ws : String) (row : CreditLotTransaction) :
    Int × Option Int :=
  (row.credits, (s.transactions.find? (·.isRefundOf ws row.id)).map (·.credits))

theorem refunded_iff_find {ws id : String} :
    s.Refunded ws id ↔ ∃ t, s.transactions.find? (·.isRefundOf ws id) = some t := by
  rw [← Option.isSome_iff_exists, List.find?_isSome]
  rfl

/-- A row pushed changes nothing for the rows it does not answer. -/
theorem rowFacts_push {t row : CreditLotTransaction} {ws : String}
    (ht : t.isRefundOf ws row.id = false) : (s.push t).rowFacts ws row = s.rowFacts ws row := by
  rw [rowFacts, rowFacts, push_transactions, List.find?_append, List.find?_cons, ht,
    List.find?_nil, Option.or_none]

/-- What a refund of the next row leaves: the row is behind those refunded and carries its refund,
and every other row reads as it did. -/
structure AnswersNext (s s₁ : MemoryCreditLedger) (ws op : String)
    (pre rest : List CreditLotTransaction) (row t : CreditLotTransaction) : Prop where
  usages : s₁.usagesOf ws op = (pre ++ [row]) ++ rest
  refunded : ∀ u ∈ pre ++ [row], s₁.Refunded ws u.id
  facts : s₁.rowFacts ws row = (row.credits, some t.credits)
  others : ∀ u : CreditLotTransaction, u.id ≠ row.id → s₁.rowFacts ws u = s.rowFacts ws u

theorem answersNext {s₁ : MemoryCreditLedger} {ws op : String}
    {pre rest : List CreditLotTransaction} {row t : CreditLotTransaction}
    (hrows : s.usagesOf ws op = pre ++ row :: rest) (hpre : ∀ u ∈ pre, s.Refunded ws u.id)
    (hfind : s.transactions.find? (·.isRefundOf ws row.id) = none)
    (htrans : s₁.transactions = s.transactions ++ [t]) (htws : t.workspaceId = ws)
    (htr : t.transactionType = .REFUND) (htrel : t.relatedTransactionId = some row.id) :
    AnswersNext s s₁ ws op pre rest row t := by
  have href (id : String) : t.isRefundOf ws id = true ↔ id = row.id := by
    rw [CreditLotTransaction.isRefundOf_eq_true, htrel, Option.some_inj]
    exact ⟨fun hid => hid.2.2.symm, fun hid => ⟨htws, htr, hid.symm⟩⟩
  have hpush (id : String) : s₁.Refunded ws id ↔ s.Refunded ws id ∨ id = row.id := by
    rw [Refunded, htrans, ← href id]
    exact refunded_push
  refine ⟨?_, ?_, ?_, fun u hne => ?_⟩
  · rw [List.append_assoc, List.singleton_append, ← hrows, usagesOf, htrans]
    simp [CreditLotTransaction.isUsageOf, htr, usagesOf]
  · refine List.forall_mem_append.mpr ⟨fun u hu => (hpush u.id).mpr (.inl (hpre u hu)), ?_⟩
    exact List.forall_mem_singleton.mpr ((hpush row.id).mpr (.inr rfl))
  · rw [rowFacts, htrans, List.find?_append, hfind, Option.none_or,
      List.find?_cons_of_pos ((href row.id).mpr rfl), Option.map_some]
  · have hsame : (s.push t).rowFacts ws u = s.rowFacts ws u :=
      rowFacts_push (Bool.eq_false_iff.mpr fun hid => hne ((href u.id).mp hid))
    rw [← hsame, rowFacts, rowFacts, htrans]
    rfl

/-- The rows behind the next one read as they did. -/
theorem AnswersNext.rest {s₁ : MemoryCreditLedger} {ws op : String}
    {pre rest : List CreditLotTransaction} {row t : CreditLotTransaction} (h : WellKept s)
    (hrows : s.usagesOf ws op = pre ++ row :: rest)
    (hnext : AnswersNext s s₁ ws op pre rest row t) :
    rest.map (s₁.rowFacts ws) = rest.map (s.rowFacts ws) := by
  have hdist := h.usagesOf_distinct ws op
  rw [hrows] at hdist
  exact List.map_congr_left fun u hu => hnext.others u
    ((List.pairwise_cons.mp (List.pairwise_append.mp hdist).2.1).1 u hu).symm

end MemoryCreditLedger

/-- **One row refunded** is a posting; a missing lot throws before anything is written. -/
theorem wp_refundRow {input : RefundUsageInput} {op : String} {index : Nat}
    {pre post : List CreditLotTransaction} {row : CreditLotTransaction} {amount : Int}
    (hrows : s.usagesOf input.workspaceId op = pre ++ row :: post)
    (hpre : ∀ u ∈ pre, s.Refunded input.workspaceId u.id)
    (hopen : ¬ s.Refunded input.workspaceId row.id) (hle : amount ≤ row.credits)
    (hok : ok amount) :
    Wp (refundRow host input index row amount) s
      (fun t s' => Posting host ok s s' ∧ s'.transactions = s.transactions ++ [t] ∧
        t.workspaceId = input.workspaceId ∧ t.transactionType = .REFUND ∧
        t.relatedTransactionId = some row.id)
      (fun _ s' => s' = s) := by
  simp only [refundRow, wp_bind, wp_get]
  split
  · exact (wp_throw _).mpr rfl
  · next lot hlot =>
    split
    · next hactive =>
      simp only [wp_bind, wp_set, wp_pure, hactive]
      simp only [Bool.and_eq_true, Bool.not_eq_true', Bool.eq_false_iff] at hactive
      exact ⟨.refund input op index pre post row lot amount hrows hpre hopen hlot hactive.1 hle hok,
        rfl, rfl, rfl, rfl⟩
    · next hactive =>
      simp only [wp_bind, wp_set, wp_pure, hactive]
      exact ⟨.refundUncredited input op index pre post row lot amount hrows hpre hopen hlot hle hok,
        rfl, rfl, rfl, rfl⟩

theorem refundAmount_le (remaining : Option Int) (credits : Int) :
    refundAmount remaining credits ≤ credits := by
  cases remaining with
  | none => exact le_refl _
  | some r => exact min_le_left _ _

/-- **The refund loop** writes the repriced amounts, each answering the next unanswered row. -/
theorem writes_refundEach {input : RefundUsageInput} {op : String} :
    ∀ {rest pre : List CreditLotTransaction} {remaining : Option Int} {index : Nat}
      {s : MemoryCreditLedger}, WellKept s →
      s.usagesOf input.workspaceId op = pre ++ rest →
      (∀ u ∈ pre, s.Refunded input.workspaceId u.id) →
      (∀ a ∈ repriced remaining (rest.map (s.rowFacts input.workspaceId)), ok a) →
      Writes (Posting host ok) (refundEach host input remaining index rest) s
  | [], _, _, _, _, _, _, _, _ => by
    simp only [Writes, refundEach, wp_pure]
    exact .refl
  | row :: rest, pre, remaining, index, s, h, hrows, hpre, hok => by
    have hsplit : s.usagesOf input.workspaceId op = (pre ++ [row]) ++ rest := by simp [hrows]
    unfold Writes refundEach
    by_cases hstop : remaining = some 0
    · rw [if_pos hstop, wp_pure]
    rw [if_neg hstop]
    simp only [wp_bind, wp_get]
    cases hfind : s.transactions.find? (·.isRefundOf input.workspaceId row.id) with
    | some existing =>
      -- answered before: the row only lowers what is left
      have hpre' := List.forall_mem_append.mpr
        ⟨hpre, List.forall_mem_singleton.mpr (refunded_iff_find.mpr ⟨_, hfind⟩)⟩
      have hok' : ∀ a ∈ repriced (remaining.map (· - existing.credits))
          (rest.map (s.rowFacts input.workspaceId)), ok a := by
        intro a ha
        refine hok a ?_
        rw [List.map_cons, rowFacts, hfind]
        simpa [repriced, hstop] using ha
      simp only [wp_bind, wp_pure]
      exact writes_iff.mp (writes_refundEach h hsplit hpre' hok')
    | none =>
      have hopen : ¬ s.Refunded input.workspaceId row.id := by
        rw [refunded_iff_find, hfind]
        simp
      obtain ⟨amount, hamount⟩ : ∃ amount, amount = refundAmount remaining row.credits := ⟨_, rfl⟩
      have hle : amount ≤ row.credits := hamount ▸ refundAmount_le _ _
      have hlist : repriced remaining ((row :: rest).map (s.rowFacts input.workspaceId)) =
          amount :: repriced (remaining.map (· - amount))
            (rest.map (s.rowFacts input.workspaceId)) := by
        rw [List.map_cons, rowFacts, hfind, hamount]
        simp [repriced, hstop]
      rw [hlist] at hok
      simp only [wp_bind, wp_pure, ← hamount]
      refine (wp_refundRow hrows hpre hopen hle (hok amount List.mem_cons_self)).mono
        (fun t s₁ hs₁ => ?_) (fun _ _ hs₁ => hs₁ ▸ ReflTransGen.refl)
      obtain ⟨hpost, htrans, htws, htr, htrel⟩ := hs₁
      have hnext := answersNext hrows hpre hfind htrans htws htr htrel
      refine Wp.mono (writes_iff.mp (writes_refundEach (h.posting hpost) hnext.usages
        hnext.refunded fun a ha => ?_)) (fun _ _ hc => .head hpost hc) fun _ _ hc => .head hpost hc
      exact hok a (List.mem_cons_of_mem _ (hnext.rest h hrows ▸ ha))

/-! ### Every call -/

namespace LedgerCall

/-- **The amounts a call refunds**, read off the ledger before the call. -/
def refundAmounts (host : Host) (s : MemoryCreditLedger) : LedgerCall → List Int
  | .refundUsageOperation input =>
    match checkRefund host input with
    | .ok op => repriced input.credits
        ((s.usagesOf input.workspaceId op).map (s.rowFacts input.workspaceId))
    | .error _ => []
  | _ => []

end LedgerCall

theorem writes_refundUsageOperation (h : WellKept s) (input : RefundUsageInput)
    (hok : ∀ a ∈ (LedgerCall.refundUsageOperation input).refundAmounts host s, ok a) :
    Writes (Posting host ok) (MeiyeAgent.refundUsageOperation host input) s := by
  have hloop (op : String) (hop : checkRefund host input = .ok op) :
      Writes (Posting host ok) (refundEach host input input.credits 0
        (s.transactions.filter (·.isUsageOf input.workspaceId op))) s := by
    rw [LedgerCall.refundAmounts, hop] at hok
    exact writes_refundEach h (List.nil_append _).symm (fun _ hu => absurd hu List.not_mem_nil) hok
  simp only [Writes, MeiyeAgent.refundUsageOperation, wp_bind, wp_check, wp_get]
  refine ⟨fun op hop => ?_, fun _ _ => .refl⟩
  refine (writes_iff.mp (hloop op hop)).mono (fun loop s' hc => ?_) fun _ _ hc => hc
  rcases loop with ⟨refunds, _ | r⟩
  · exact (wp_pure _).mpr hc
  · simp only [wp_ite, wp_pure, wp_throw]
    exact ⟨fun _ => hc, fun _ => hc⟩

/-- **Every call on a well kept book is a chain of postings.** -/
theorem chain_call (h : WellKept s) (call : LedgerCall) (hok : ∀ a ∈ call.refundAmounts host s, ok a) :
    ReflTransGen (Posting host ok) s (call.step host s) :=
  match call with
  | .grant input => (writes_grant input).final
  | .consume input => (writes_consume h input).final
  | .refundUsageOperation input => (writes_refundUsageOperation h input hok).final
  | .expireLots input => (writes_expireLots h input).final
  | .expireSubscriptionLots input => (writes_expireSubscriptionLots h input).final

theorem WellKept.step (h : WellKept s) (call : LedgerCall) : WellKept (call.step host s) :=
  have hchain : ReflTransGen (Posting host fun _ => True) s (call.step host s) :=
    chain_call h call fun _ _ => trivial
  h.chain hchain

/-- **The ledger is well kept after every run.** -/
theorem wellKept_run (calls : List LedgerCall) : WellKept (runLedger host calls) :=
  runAll_invariant WellKept (fun _ call h => WellKept.step h call) calls WellKept.empty

/-- **What every posting keeps on a well kept book holds after every run.** -/
theorem invariant_run (I : MemoryCreditLedger → Prop)
    (hposting : ∀ s s', Posting host (fun _ => True) s s' → WellKept s → I s → I s')
    (hempty : I .empty) (calls : List LedgerCall) : I (runLedger host calls) := by
  refine (runAll_invariant (fun s => WellKept s ∧ I s) (fun s call h => ?_) calls
    ⟨WellKept.empty, hempty⟩).2
  exact chain_invariant (fun s => WellKept s ∧ I s)
    (fun s s' hp hI => ⟨hI.1.posting hp, hposting s s' hp hI.1 hI.2⟩)
    (chain_call h.1 call fun _ _ => trivial) h

end MeiyeAgent
