import MeiyeAgent.CreditBilling.Ledger

/-!
# CreditBilling/Postings — what a call can do to the ledger

Whatever a call of the ledger does, it does by **postings**: one lot opened or one balance moved,
and one transaction pushed with it.  `Posting ok` lists the five kinds with everything the code
has checked when it makes them; `ok` is what is known of a refunded amount.

* `WellKept` — the ledger is a well kept book: lot keys are unique, USAGE rows are numbered, a
  REFUND row answers a USAGE row, and the answered rows of an operation come first.  Every posting
  keeps it.
-/

namespace MeiyeAgent

open Effect Table Greedy Text Relation

namespace MemoryCreditLedger

/-- The USAGE row `usageId` has been answered by a refund. -/
def Refunded (s : MemoryCreditLedger) (workspaceId usageId : String) : Prop :=
  ∃ t ∈ s.transactions, t.isRefundOf workspaceId usageId = true

instance (s : MemoryCreditLedger) (workspaceId usageId : String) :
    Decidable (s.Refunded workspaceId usageId) :=
  inferInstanceAs (Decidable (∃ t ∈ s.transactions, t.isRefundOf workspaceId usageId = true))

/-- The USAGE rows of an operation, oldest first. -/
def usagesOf (s : MemoryCreditLedger) (workspaceId operationId : String) :
    List CreditLotTransaction :=
  s.transactions.filter (·.isUsageOf workspaceId operationId)

/-- The lot has been emptied by an EXPIRE row. -/
def ExplicitlyExpired (s : MemoryCreditLedger) (workspaceId lotId : String) : Prop :=
  s.transactions.any (·.isExpiryOf workspaceId lotId) = true

end MemoryCreditLedger

open MemoryCreditLedger

/-! ## The five postings -/

/-- **A posting.**  Each carries the checks the code has made by the time it writes. -/
inductive Posting (host : Host) (ok : Int → Prop) (s : MemoryCreditLedger) :
    MemoryCreditLedger → Prop
  | grant (input : GrantCreditsInput) (key : String) (hinput : assertGrantInput host input = .ok ())
      (hnew : ∀ lot ∈ s.lots, lot.workspaceId = input.workspaceId →
        lot.id ≠ input.id ∧ lot.grantIdempotencyKey ≠ key) :
      Posting host ok s (.mk (s.lots ++ [grantedLot input key])
        (s.transactions ++ [grantTransaction input (grantedLot input key) key]))
  | usage (input : ConsumeCreditsInput) (operationId : String) (index : Nat)
      (lot : CreditGrantLot) (amount : Int)
      (hlot : s.lots.find? (·.isLot input.workspaceId lot.id) = some lot)
      (hpos : 0 < amount) (hroom : amount ≤ lot.remainingCredits)
      (hfresh : ∀ t ∈ s.usagesOf input.workspaceId operationId,
        ∃ n < index, t.id = indexed operationId n) :
      Posting host ok s ((s.setRemaining input.workspaceId lot.id (lot.remainingCredits - amount)).push
        (usageTransaction input operationId index lot.id amount))
  | refund (input : RefundUsageInput) (operationId : String) (index : Nat)
      (pre post : List CreditLotTransaction) (row : CreditLotTransaction)
      (lot : CreditGrantLot) (amount : Int)
      (hrows : s.usagesOf input.workspaceId operationId = pre ++ row :: post)
      (hpre : ∀ u ∈ pre, s.Refunded input.workspaceId u.id)
      (hopen : ¬ s.Refunded input.workspaceId row.id)
      (hlot : s.lots.find? (·.isLot input.workspaceId row.lotId) = some lot)
      (hlive : ¬ s.ExplicitlyExpired input.workspaceId lot.id)
      (hle : amount ≤ row.credits) (hok : ok amount) :
      Posting host ok s ((s.setRemaining input.workspaceId row.lotId
          (min lot.originalCredits (lot.remainingCredits + amount))).push
        (refundTransaction input index row lot.id amount true))
  | refundUncredited (input : RefundUsageInput) (operationId : String) (index : Nat)
      (pre post : List CreditLotTransaction) (row : CreditLotTransaction)
      (lot : CreditGrantLot) (amount : Int)
      (hrows : s.usagesOf input.workspaceId operationId = pre ++ row :: post)
      (hpre : ∀ u ∈ pre, s.Refunded input.workspaceId u.id)
      (hopen : ¬ s.Refunded input.workspaceId row.id)
      (hlot : s.lots.find? (·.isLot input.workspaceId row.lotId) = some lot)
      (hle : amount ≤ row.credits) (hok : ok amount) :
      Posting host ok s (s.push (refundTransaction input index row lot.id amount false))
  | expire (family actorId correlationId createdAt : String) (lot : CreditGrantLot)
      (hlot : s.lots.find? (·.isLot lot.workspaceId lot.id) = some lot)
      (hpos : 0 < lot.remainingCredits) :
      Posting host ok s ((s.setRemaining lot.workspaceId lot.id 0).push
        (expireTransaction family lot actorId correlationId createdAt))

/-! ## A well kept book -/

/-- The key of a lot. -/
def CreditGrantLot.key (lot : CreditGrantLot) : String × String := (lot.workspaceId, lot.id)

/-- **The book is well kept.** -/
structure WellKept (s : MemoryCreditLedger) : Prop where
  lotKeys : (s.lots.map (·.key)).Nodup
  rowLots : ∀ t ∈ s.transactions, (t.workspaceId, t.lotId) ∈ s.lots.map (·.key)
  usageNumbered : ∀ t ∈ s.transactions, t.transactionType = .USAGE →
    ∃ n, t.id = indexed t.operationId n
  usageDistinct : s.transactions.Pairwise fun a b =>
    a.transactionType = .USAGE → b.transactionType = .USAGE → a.workspaceId = b.workspaceId →
      a.id ≠ b.id
  refundAnswers : ∀ workspaceId usageId, s.Refunded workspaceId usageId →
    ∃ u ∈ s.transactions, u.transactionType = .USAGE ∧ u.workspaceId = workspaceId ∧ u.id = usageId
  refundPrefix : ∀ workspaceId operationId, (s.usagesOf workspaceId operationId).Pairwise fun a b =>
    s.Refunded workspaceId b.id → s.Refunded workspaceId a.id

namespace MemoryCreditLedger

variable {s : MemoryCreditLedger} {t : CreditLotTransaction} {ws id : String}

@[simp] theorem setRemaining_transactions (r : Int) :
    (s.setRemaining ws id r).transactions = s.transactions := rfl

@[simp] theorem push_lots : (s.push t).lots = s.lots := rfl

@[simp] theorem push_transactions : (s.push t).transactions = s.transactions ++ [t] := rfl

/-- A balance moves under its lot's key. -/
theorem setRemaining_keys (r : Int) :
    (s.setRemaining ws id r).lots.map (·.key) = s.lots.map (·.key) := by
  simp only [setRemaining]
  rw [map_updateFirst]
  intro
  rfl

theorem refunded_push :
    (s.push t).Refunded ws id ↔ s.Refunded ws id ∨ t.isRefundOf ws id = true := by
  simp [Refunded, or_and_right, exists_or]

/-- A pushed row joins the USAGE rows of its operation, at the end. -/
theorem usagesOf_push (op : String) :
    (s.push t).usagesOf ws op = s.usagesOf ws op ++ if t.isUsageOf ws op then [t] else [] := by
  rw [usagesOf, push_transactions, List.filter_append, List.filter_singleton, Bool.cond_eq_ite]
  rfl

theorem mem_usagesOf {op : String} {u : CreditLotTransaction} :
    u ∈ s.usagesOf ws op ↔ u ∈ s.transactions ∧
      u.workspaceId = ws ∧ u.transactionType = .USAGE ∧ u.operationId = op := by
  simp [usagesOf, CreditLotTransaction.isUsageOf, and_assoc]

end MemoryCreditLedger

theorem CreditLotTransaction.isRefundOf_eq_true {t : CreditLotTransaction} {ws id : String} :
    t.isRefundOf ws id = true ↔
      t.workspaceId = ws ∧ t.transactionType = .REFUND ∧ t.relatedTransactionId = some id := by
  simp [isRefundOf, and_assoc]

theorem CreditLotTransaction.isUsageOf_eq_true {t : CreditLotTransaction} {ws op : String} :
    t.isUsageOf ws op = true ↔
      t.workspaceId = ws ∧ t.transactionType = .USAGE ∧ t.operationId = op := by
  simp [isUsageOf, and_assoc]

namespace WellKept

variable {s : MemoryCreditLedger} {t : CreditLotTransaction} {ws op : String}

theorem empty : WellKept .empty where
  lotKeys := List.nodup_nil
  rowLots _ ht := absurd ht List.not_mem_nil
  usageNumbered _ ht := absurd ht List.not_mem_nil
  usageDistinct := List.Pairwise.nil
  refundAnswers _ _ h := by
    obtain ⟨t, ht, -⟩ := h
    exact absurd ht List.not_mem_nil
  refundPrefix _ _ := List.Pairwise.nil

theorem setRemaining (h : WellKept s) (id : String) (r : Int) :
    WellKept (s.setRemaining ws id r) where
  lotKeys := by
    rw [setRemaining_keys]
    exact h.lotKeys
  rowLots := by
    rw [setRemaining_keys]
    exact h.rowLots
  usageNumbered := h.usageNumbered
  usageDistinct := h.usageDistinct
  refundAnswers := h.refundAnswers
  refundPrefix := h.refundPrefix

/-- A lot of a new key. -/
theorem openLot (h : WellKept s) (lot : CreditGrantLot)
    (hnew : ∀ l ∈ s.lots, l.workspaceId = lot.workspaceId → l.id ≠ lot.id) :
    WellKept { s with lots := s.lots ++ [lot] } where
  lotKeys := by
    rw [List.map_append, List.map_singleton, List.nodup_append]
    refine ⟨h.lotKeys, List.nodup_singleton _, ?_⟩
    rintro _ hk _ hk' rfl
    obtain ⟨l, hl, hkey⟩ := List.mem_map.mp hk
    have hkey : l.key = lot.key := hkey.trans (List.mem_singleton.mp hk')
    exact hnew l hl (congrArg Prod.fst hkey) (congrArg Prod.snd hkey)
  rowLots t ht := by
    rw [List.map_append]
    exact List.mem_append_left _ (h.rowLots t ht)
  usageNumbered := h.usageNumbered
  usageDistinct := h.usageDistinct
  refundAnswers := h.refundAnswers
  refundPrefix := h.refundPrefix

theorem push_rowLots (h : WellKept s) (hlot : (t.workspaceId, t.lotId) ∈ s.lots.map (·.key)) :
    ∀ u ∈ (s.push t).transactions, (u.workspaceId, u.lotId) ∈ s.lots.map (·.key) := by
  intro u hu
  rcases List.mem_append.mp hu with hu | hu
  · exact h.rowLots u hu
  · exact List.mem_singleton.mp hu ▸ hlot

/-- A row that is neither a usage nor a refund. -/
theorem push_other (h : WellKept s) (hlot : (t.workspaceId, t.lotId) ∈ s.lots.map (·.key))
    (hu : t.transactionType ≠ .USAGE) (hr : t.transactionType ≠ .REFUND) : WellKept (s.push t) where
  lotKeys := h.lotKeys
  rowLots := h.push_rowLots hlot
  usageNumbered t' ht' husage := by
    rcases List.mem_append.mp ht' with ht' | ht'
    · exact h.usageNumbered t' ht' husage
    · exact absurd (List.mem_singleton.mp ht' ▸ husage) hu
  usageDistinct := by
    refine List.pairwise_append.mpr ⟨h.usageDistinct, List.pairwise_singleton _ _, ?_⟩
    intro a _ b hb _ husage
    exact absurd (List.mem_singleton.mp hb ▸ husage) hu
  refundAnswers ws id href := by
    rcases refunded_push.mp href with href | href
    · obtain ⟨u, hu, hrow⟩ := h.refundAnswers ws id href
      exact ⟨u, List.mem_append_left _ hu, hrow⟩
    · exact absurd (CreditLotTransaction.isRefundOf_eq_true.mp href).2.1 hr
  refundPrefix ws op := by
    have hrow : t.isUsageOf ws op = false :=
      Bool.eq_false_iff.mpr fun hrow => hu (CreditLotTransaction.isUsageOf_eq_true.mp hrow).2.1
    rw [usagesOf_push, hrow]
    simp only [Bool.false_eq_true, if_false, List.append_nil]
    refine (h.refundPrefix ws op).imp fun hab href => refunded_push.mpr (.inl (hab ?_))
    rcases refunded_push.mp href with href | href
    · exact href
    · exact absurd (CreditLotTransaction.isRefundOf_eq_true.mp href).2.1 hr

/-- USAGE rows of a workspace are told apart by their ids. -/
theorem usage_eq (h : WellKept s) {a b : CreditLotTransaction} (ha : a ∈ s.transactions)
    (hb : b ∈ s.transactions) (hua : a.transactionType = .USAGE) (hub : b.transactionType = .USAGE)
    (hws : a.workspaceId = b.workspaceId) (hid : a.id = b.id) : a = b := by
  by_contra hne
  have hsymm : Std.Symm fun a b : CreditLotTransaction =>
      a.transactionType = .USAGE → b.transactionType = .USAGE → a.workspaceId = b.workspaceId →
        a.id ≠ b.id :=
    ⟨fun _ _ hxy hy hx hws hid => hxy hx hy hws.symm hid.symm⟩
  exact h.usageDistinct.forall ha hb hne hua hub hws hid

theorem usagesOf_distinct (h : WellKept s) (ws op : String) :
    (s.usagesOf ws op).Pairwise fun a b => a.id ≠ b.id := by
  refine (h.usageDistinct.filter _).imp_of_mem ?_
  intro a b ha hb hab
  obtain ⟨-, hwa, hua, -⟩ := mem_usagesOf.mp ha
  obtain ⟨-, hwb, hub, -⟩ := mem_usagesOf.mp hb
  exact hab hua hub (hwa.trans hwb.symm)

/-- The next USAGE row of an operation. -/
theorem push_usage (h : WellKept s) (hlot : (t.workspaceId, t.lotId) ∈ s.lots.map (·.key))
    {index : Nat} (hu : t.transactionType = .USAGE)
    (hid : t.id = indexed t.operationId index)
    (hfresh : ∀ u ∈ s.usagesOf t.workspaceId t.operationId,
      ∃ n < index, u.id = indexed t.operationId n) : WellKept (s.push t) := by
  have hr (ws id : String) : t.isRefundOf ws id = false := by
    simp [CreditLotTransaction.isRefundOf, hu]
  -- the number of the row is new within its operation, and the operation is read off its id
  have hnew : ∀ u ∈ s.transactions, u.transactionType = .USAGE → u.workspaceId = t.workspaceId →
      u.id ≠ t.id := by
    intro u hmem hut hws heq
    obtain ⟨n, hn⟩ := h.usageNumbered u hmem hut
    obtain ⟨hop, rfl⟩ := indexed_inj.mp (hn.symm.trans (heq.trans hid))
    obtain ⟨m, hm, hidm⟩ := hfresh u (mem_usagesOf.mpr ⟨hmem, hws, hut, hop⟩)
    have := (indexed_inj.mp (hidm.symm.trans (heq.trans hid))).2
    omega
  refine ⟨h.lotKeys, h.push_rowLots hlot, ?_, ?_, ?_, ?_⟩
  · intro u hmem hut
    rcases List.mem_append.mp hmem with hmem | hmem
    · exact h.usageNumbered u hmem hut
    · rw [List.mem_singleton.mp hmem]
      exact ⟨index, hid⟩
  · refine List.pairwise_append.mpr ⟨h.usageDistinct, List.pairwise_singleton _ _, ?_⟩
    intro a ha b hb hua _ hws
    rw [List.mem_singleton.mp hb] at hws ⊢
    exact hnew a ha hua hws
  · intro ws id href
    rcases refunded_push.mp href with href | href
    · obtain ⟨u, hu, hrow⟩ := h.refundAnswers ws id href
      exact ⟨u, List.mem_append_left _ hu, hrow⟩
    · simp [hr] at href
  · intro ws op
    have hpush (id : String) : (s.push t).Refunded ws id ↔ s.Refunded ws id := by
      simp [refunded_push, hr]
    simp only [hpush, usagesOf_push]
    refine List.pairwise_append.mpr ⟨h.refundPrefix ws op, by split <;> simp, ?_⟩
    intro a _ b hb href
    split at hb
    · next hrow =>
      obtain ⟨u, hmem, hut, hws, hidu⟩ := h.refundAnswers ws b.id href
      rw [List.mem_singleton.mp hb] at hidu
      have hws' := (CreditLotTransaction.isUsageOf_eq_true.mp hrow).1
      exact absurd hidu (hnew u hmem hut (hws.trans hws'.symm))
    · exact absurd hb List.not_mem_nil

/-- A refund of the first unanswered row of an operation. -/
theorem push_refund (h : WellKept s) (hlot : (t.workspaceId, t.lotId) ∈ s.lots.map (·.key))
    {pre post : List CreditLotTransaction}
    {row : CreditLotTransaction} (hrows : s.usagesOf ws op = pre ++ row :: post)
    (hpre : ∀ u ∈ pre, s.Refunded ws u.id) (hws : t.workspaceId = ws)
    (hr : t.transactionType = .REFUND) (hrel : t.relatedTransactionId = some row.id) :
    WellKept (s.push t) := by
  obtain ⟨hrow, hrws, hru, hrop⟩ := mem_usagesOf.mp (hrows ▸ by simp : row ∈ s.usagesOf ws op)
  have hu (ws op : String) : t.isUsageOf ws op = false := by
    simp [CreditLotTransaction.isUsageOf, hr]
  have hpush (ws' id : String) :
      (s.push t).Refunded ws' id ↔ s.Refunded ws' id ∨ ws' = ws ∧ id = row.id := by
    rw [refunded_push, CreditLotTransaction.isRefundOf_eq_true, hws, hrel, Option.some_inj]
    simp only [hr, true_and, eq_comm]
  refine ⟨h.lotKeys, h.push_rowLots hlot, ?_, ?_, ?_, ?_⟩
  · intro u hmem hut
    rcases List.mem_append.mp hmem with hmem | hmem
    · exact h.usageNumbered u hmem hut
    · rw [List.mem_singleton.mp hmem, hr] at hut
      exact absurd hut (by simp)
  · refine List.pairwise_append.mpr ⟨h.usageDistinct, List.pairwise_singleton _ _, ?_⟩
    intro a _ b hb _ hub
    rw [List.mem_singleton.mp hb, hr] at hub
    exact absurd hub (by simp)
  · intro ws' id href
    rcases (hpush ws' id).mp href with href | ⟨rfl, rfl⟩
    · obtain ⟨u, hu, hrow⟩ := h.refundAnswers ws' id href
      exact ⟨u, List.mem_append_left _ hu, hrow⟩
    · exact ⟨row, List.mem_append_left _ hrow, hru, hrws, rfl⟩
  · intro ws' op'
    simp only [hpush, usagesOf_push, hu, Bool.false_eq_true, if_false, List.append_nil]
    by_cases hsame : ws' = ws ∧ op' = op
    · -- the operation itself: the row joins the answered prefix
      obtain ⟨rfl, rfl⟩ := hsame
      have hdist := h.usagesOf_distinct ws' op'
      have hpair := h.refundPrefix ws' op'
      rw [hrows] at hdist hpair ⊢
      obtain ⟨-, hpost, -⟩ := List.pairwise_append.mp hpair
      obtain ⟨-, hne, -⟩ := List.pairwise_append.mp hdist
      refine List.pairwise_append.mpr ⟨?_, List.pairwise_cons.mpr ⟨?_, ?_⟩, ?_⟩
      · exact List.pairwise_iff_forall_sublist.mpr fun hab _ =>
          .inl (hpre _ (hab.subset (by simp)))
      · exact fun _ _ _ => .inr ⟨rfl, rfl⟩
      · refine (List.pairwise_cons.mp hpost).2.imp_of_mem ?_
        rintro a b - hb hab (href | ⟨-, hid⟩)
        · exact .inl (hab href)
        · exact absurd hid.symm ((List.pairwise_cons.mp hne).1 b hb)
      · exact fun a ha _ _ _ => .inl (hpre a ha)
    · -- another operation: none of its rows is the one answered
      refine (h.refundPrefix ws' op').imp_of_mem ?_
      rintro a b - hb hab (href | ⟨rfl, hid⟩)
      · exact .inl (hab href)
      · obtain ⟨hmem, hbws, hbu, hbop⟩ := mem_usagesOf.mp hb
        obtain rfl := h.usage_eq hmem hrow hbu hru (hbws.trans hrws.symm) hid
        exact absurd ⟨rfl, hbop.symm.trans hrop⟩ hsame

/-- The key a lot is found under is a key of the book, whatever its balance. -/
theorem key_mem {lot : CreditGrantLot} {id : String}
    (hlot : s.lots.find? (·.isLot ws id) = some lot) (r : Int) :
    (ws, lot.id) ∈ (s.setRemaining ws id r).lots.map (·.key) := by
  rw [setRemaining_keys]
  have hkey := List.find?_some hlot
  simp only [CreditGrantLot.isLot, Bool.and_eq_true, beq_iff_eq] at hkey
  exact List.mem_map.mpr ⟨lot, List.mem_of_find?_eq_some hlot, Prod.ext hkey.1 rfl⟩

/-- **Every posting keeps the book well kept.** -/
theorem posting {host : Host} {ok : Int → Prop} {s s' : MemoryCreditLedger}
    (hp : Posting host ok s s') (h : WellKept s) : WellKept s' := by
  cases hp with
  | grant input key _ hnew =>
    exact (h.openLot (grantedLot input key) fun l hl hws => (hnew l hl hws).1).push_other
      (List.mem_map.mpr ⟨_, List.mem_append_right _ List.mem_cons_self, rfl⟩)
      (by simp [grantTransaction]) (by simp [grantTransaction])
  | usage input op index lot amount hlot _ _ hfresh =>
    exact (h.setRemaining lot.id _).push_usage (key_mem hlot _) rfl rfl hfresh
  | refund input op index pre post row lot amount hrows hpre _ hlot _ _ _ =>
    exact (h.setRemaining row.lotId _).push_refund (key_mem hlot _) hrows hpre rfl rfl rfl
  | refundUncredited input op index pre post row lot amount hrows hpre _ hlot _ _ =>
    refine h.push_refund ?_ hrows hpre rfl rfl rfl
    have := key_mem hlot 0
    rwa [setRemaining_keys] at this
  | expire family _ _ _ lot hlot _ =>
    exact (h.setRemaining lot.id 0).push_other (key_mem hlot 0) (by simp [expireTransaction])
      (by simp [expireTransaction])

theorem chain {host : Host} {ok : Int → Prop} {s s' : MemoryCreditLedger} (h : WellKept s)
    (hchain : ReflTransGen (Posting host ok) s s') : WellKept s' :=
  chain_invariant WellKept (fun _ _ => posting) hchain h

end WellKept

/-! ## Lots under their keys -/

namespace MemoryCreditLedger

variable {s : MemoryCreditLedger} {ws id : String}

theorem isLot_eq_true {lot : CreditGrantLot} :
    lot.isLot ws id = true ↔ lot.workspaceId = ws ∧ lot.id = id := by
  simp [CreditGrantLot.isLot]

/-- A lot of a well kept book is found under its key. -/
theorem find_lot (h : WellKept s) {lot : CreditGrantLot} (hlot : lot ∈ s.lots) :
    s.lots.find? (·.isLot lot.workspaceId lot.id) = some lot := by
  refine find?_of_nodup h.lotKeys hlot fun l _ => ?_
  rw [isLot_eq_true, CreditGrantLot.key, CreditGrantLot.key, Prod.mk.injEq]

/-- Another lot is found as before. -/
theorem find_setRemaining_ne {ws' id' : String} (r : Int) (hne : ¬ (ws' = ws ∧ id' = id)) :
    (s.setRemaining ws id r).lots.find? (·.isLot ws' id') = s.lots.find? (·.isLot ws' id') := by
  refine find?_updateFirst_of_disjoint (fun l hl => ?_) (fun l hl => ?_) s.lots <;>
  · obtain ⟨hws, hid⟩ := isLot_eq_true.mp hl
    refine Bool.eq_false_iff.mpr fun hl' => hne ?_
    obtain ⟨hws', hid'⟩ := isLot_eq_true.mp hl'
    exact ⟨hws'.symm.trans hws, hid'.symm.trans hid⟩

/-- The lots after a move: the others as they were, and the one moved. -/
theorem mem_setRemaining (h : WellKept s) {lot : CreditGrantLot}
    (hlot : s.lots.find? (·.isLot ws id) = some lot) {r : Int}
    {l : CreditGrantLot} (hl : l ∈ (s.setRemaining ws id r).lots) :
    (l ∈ s.lots ∧ ¬ (l.workspaceId = ws ∧ l.id = id)) ∨
      l = { lot with remainingCredits := r, revision := lot.revision + 1 } := by
  obtain ⟨pre, post, hsplit, hupdate, hkey, hpre⟩ := updateFirst_split
    (fun lot : CreditGrantLot => { lot with remainingCredits := r, revision := lot.revision + 1 })
    hlot
  obtain ⟨hws, hid⟩ := isLot_eq_true.mp hkey
  rw [setRemaining, hupdate] at hl
  rcases List.mem_append.mp hl with hl | hl
  · refine .inl ⟨hsplit ▸ List.mem_append_left _ hl, fun hsame => ?_⟩
    exact absurd (isLot_eq_true.mpr hsame) (by simp [hpre l hl])
  · rcases List.mem_cons.mp hl with hl | hl
    · exact .inr hl
    · refine .inl ⟨hsplit ▸ List.mem_append_right _ (List.mem_cons_of_mem _ hl), fun hsame => ?_⟩
      have hkeys := h.lotKeys
      rw [hsplit, List.map_append, List.map_cons] at hkeys
      refine (List.nodup_cons.mp (List.nodup_append.mp hkeys).2.1).1 (List.mem_map.mpr ⟨l, hl, ?_⟩)
      exact Prod.ext (hsame.1.trans hws.symm) (hsame.2.trans hid.symm)

end MemoryCreditLedger

end MeiyeAgent
