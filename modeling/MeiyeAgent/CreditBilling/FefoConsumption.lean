import MeiyeAgent.CreditBilling.LedgerSafety
import MeiyeAgent.Machinery.Comparators

/-!
# CreditBilling/FefoConsumption — first expired, first out

The comparator of the lots is the order `fefoOrder` on lots whose dates can be read: dated lots
before undated ones, then the expiry, then the creation, then the id as the locale collates it.

* `Dated` — the dates of a lot can be read; so can those of every lot of a run (`dated_run`).
* `chargeEach_spec`, `expireAll_remainingOf` — what a charge and an expiry leave on each lot.
* `consume_fefo` — a consumption fails, the unexpired lots as they were, exactly when they hold too
  little; otherwise it takes the request from them, each exhausted before the next is touched.
* `consume_replayed` — an operation with USAGE rows changes nothing.
-/

namespace MeiyeAgent

open Effect Table Greedy Text Relation MemoryCreditLedger Comparing

/-! ## The order of the lots -/

/-- The dates of the lot can be read. -/
structure CreditGrantLot.Dated (host : Host) (lot : CreditGrantLot) : Prop where
  created : ∃ ms, host.dateParse lot.createdAt = some ms
  expires : ∀ date, lot.expirationDate = some date → ∃ ms, host.dateParse date = some ms

/-- `compareCreditLotsForFefo(left, right) < 0`. -/
def CreditGrantLot.Before (host : Host) (left right : CreditGrantLot) : Prop :=
  ∃ n < 0, compareCreditLotsForFefo host left right = some n

/-- **First expired, first out.** -/
def fefoOrder (host : Host) : CreditGrantLot → CreditGrantLot → Ordering :=
  compareLex (compareOn (·.expirationDate.isNone))
    (compareLex (compareOn fun lot => lot.expirationDate.elim 0 host.instant)
      (compareLex (compareOn fun lot => host.instant lot.createdAt)
        (signed fun left right => host.localeCompare left.id right.id)))

section Order

variable {host : Host} {left right : CreditGrantLot}

theorem transCmp_fefoOrder (hc : Collates host) : Std.TransCmp (fefoOrder host) :=
  have _ : Std.TransCmp
      (signed fun left right : CreditGrantLot => host.localeCompare left.id right.id) :=
    transCmp_signed (fun a b => hc.antisymm a.id b.id) fun a b c => hc.trans a.id b.id c.id
  inferInstanceAs (Std.TransCmp (compareLex _ (compareLex _ (compareLex _ _))))

/-- The tie-breakers answer their part of the order. -/
theorem compareCreatedAtAndId_answers (hl : left.Dated host) (hr : right.Dated host) :
    Answers (compareCreatedAtAndId host)
      (compareLex (compareOn fun lot => host.instant lot.createdAt)
        (signed fun left right => host.localeCompare left.id right.id)) left right := by
  have hdates : compareCreatedAtAndId host left right =
      if host.instant left.createdAt - host.instant right.createdAt ≠ 0 then
        some (host.instant left.createdAt - host.instant right.createdAt)
      else some (host.localeCompare left.id right.id) := by
    rw [compareCreatedAtAndId, Host.sub_dateParse hl.created hr.created]
    by_cases hsame : host.instant left.createdAt - host.instant right.createdAt = 0
    · rw [hsame, if_neg (not_not.mpr rfl)]
      rfl
    · rw [if_pos hsame]
      split
      · next h => exact absurd (Option.some_inj.mp h) hsame
      · rfl
  rw [Answers, hdates]
  exact exists_answer_then (compare_sub _ _) fun _ => ⟨_, rfl, rfl⟩

/-- **The comparator answers the order**, on lots whose dates can be read. -/
theorem compareCreditLotsForFefo_answers (hl : left.Dated host) (hr : right.Dated host) :
    Answers (compareCreditLotsForFefo host) (fefoOrder host) left right := by
  have hties := compareCreatedAtAndId_answers hl hr
  rcases hle : left.expirationDate with _ | l <;> rcases hre : right.expirationDate with _ | r
  · obtain ⟨n, hn, hsign⟩ := hties
    refine ⟨n, by rw [compareCreditLotsForFefo, hle, hre]; exact hn, hsign.trans ?_⟩
    simp [fefoOrder, compareLex, compareOn, hle, hre]
  · refine ⟨1, by rw [compareCreditLotsForFefo, hle, hre], ?_⟩
    simp [fefoOrder, compareLex, compareOn, hle, hre]
    rfl
  · refine ⟨-1, by rw [compareCreditLotsForFefo, hle, hre], ?_⟩
    simp [fefoOrder, compareLex, compareOn, hle, hre]
    rfl
  · have hdates : compareCreditLotsForFefo host left right =
        if host.instant l - host.instant r ≠ 0 then some (host.instant l - host.instant r)
        else compareCreatedAtAndId host left right := by
      simp only [compareCreditLotsForFefo, hle, hre,
        Host.sub_dateParse (hl.expires l hle) (hr.expires r hre)]
      by_cases hsame : host.instant l - host.instant r = 0
      · rw [hsame, if_neg (not_not.mpr rfl)]
        rfl
      · rw [if_pos hsame]
        split
        · next h => exact absurd (Option.some_inj.mp h) hsame
        · rfl
    have horder : fefoOrder host left right = (compare (host.instant l) (host.instant r)).then
        (compareLex (compareOn fun lot => host.instant lot.createdAt)
          (signed fun left right => host.localeCompare left.id right.id) left right) := by
      simp [fefoOrder, compareLex, compareOn, hle, hre]
    rw [Answers, hdates, horder]
    exact exists_answer_then (compare_sub _ _) fun _ => hties

/-- **The lots are strictly ordered**, and any two whose ids the locale tells apart are decided. -/
theorem before_strictlyOrders (hc : Collates host) :
    StrictlyOrders (CreditGrantLot.Before host) (CreditGrantLot.Dated host)
      fun left right => host.localeCompare left.id right.id ≠ 0 :=
  have := transCmp_fefoOrder hc
  strictlyOrders_of_answers (fun _ _ ha hb => compareCreditLotsForFefo_answers ha hb)
    fun a b _ _ htie hne => by
      simp only [fefoOrder, compareLex_eq_eq] at htie
      exact hne (signed_eq_eq.mp htie.2.2.2)

end Order

/-! ## Lots of a run -/

variable {s' : MemoryCreditLedger}

/-- Every lot a posting leaves has the dates of a lot before it, or those a grant checked. -/
theorem Posting.dated {host : Host} {ok : Int → Prop} {s : MemoryCreditLedger}
    (hp : Posting host ok s s') (hk : WellKept s) (h : ∀ lot ∈ s.lots, lot.Dated host) :
    ∀ lot ∈ s'.lots, lot.Dated host := by
  have hmoved {ws id : String} {lot : CreditGrantLot}
      (hlot : s.lots.find? (·.isLot ws id) = some lot) (r : Int) :
      ∀ l ∈ (s.setRemaining ws id r).lots, l.Dated host := by
    intro l hl
    rcases mem_setRemaining hk hlot hl with ⟨hl, -⟩ | rfl
    · exact h l hl
    · have hd := h lot (List.mem_of_find?_eq_some hlot)
      exact ⟨hd.created, hd.expires⟩
  cases hp with
  | grant input key hinput _ =>
    obtain ⟨-, hcreated, hexpires⟩ := assertGrantInput_ok hinput
    intro lot hlot
    rcases List.mem_append.mp hlot with hlot | hlot
    · exact h lot hlot
    · exact List.mem_singleton.mp hlot ▸ ⟨hcreated, hexpires⟩
  | usage input op index lot amount hlot _ _ _ => exact hmoved hlot _
  | refund input op index pre post row lot amount _ _ _ hlot _ _ _ => exact hmoved hlot _
  | refundUncredited _ _ _ _ _ _ _ _ _ _ _ _ _ _ => exact h
  | expire _ _ _ _ lot hlot _ => exact hmoved hlot _

/-- The dates of every lot of a run can be read. -/
theorem dated_run (host : Host) (calls : List LedgerCall) :
    ∀ lot ∈ (runLedger host calls).lots, lot.Dated host :=
  invariant_run (fun s => ∀ lot ∈ s.lots, lot.Dated host) (fun _ _ hp hk h => hp.dated hk h)
    (fun _ hlot => absurd hlot List.not_mem_nil) calls

/-- **Transactions are only added.** -/
theorem Posting.transactions_prefix {host : Host} {ok : Int → Prop} {s : MemoryCreditLedger}
    (hp : Posting host ok s s') : s.transactions <+: s'.transactions := by
  cases hp <;> exact List.prefix_append _ _

/-- An operation that has USAGE rows keeps them. -/
theorem usagesOf_remain {host : Host} {s : MemoryCreditLedger} (hk : WellKept s) {ws op : String}
    (hused : s.usagesOf ws op ≠ []) (calls : List LedgerCall) :
    (runAll (LedgerCall.step host) calls s).usagesOf ws op ≠ [] := by
  refine (runAll_invariant (fun s => WellKept s ∧ s.usagesOf ws op ≠ []) (fun s call h => ?_) calls
    ⟨hk, hused⟩).2
  have hchain : ReflTransGen (Posting host fun _ => True) s (call.step host s) :=
    chain_call h.1 call fun _ _ => trivial
  refine chain_invariant (fun s => WellKept s ∧ s.usagesOf ws op ≠ [])
    (fun s s' hp hI => ⟨hI.1.posting hp, fun hnone => hI.2 ?_⟩) hchain h
  have hprefix := hp.transactions_prefix.filter (·.isUsageOf ws op)
  rw [← usagesOf, ← usagesOf, hnone] at hprefix
  exact List.prefix_nil.mp hprefix

variable {asOf : String}

/-- A lot that can be read is due, or open. -/
theorem CreditGrantLot.Dated.due_of_not_open {host : Host} {lot : CreditGrantLot} {now : Int}
    (h : lot.Dated host) (hnow : host.dateParse asOf = some now)
    (hopen : ¬ lot.openAt host asOf = true) : lot.dueAt host asOf = true := by
  rw [CreditGrantLot.openAt] at hopen
  rw [CreditGrantLot.dueAt]
  rcases hdate : lot.expirationDate with _ | date
  · rw [hdate] at hopen
    exact absurd rfl hopen
  · obtain ⟨ms, hms⟩ := h.expires date hdate
    rw [hdate] at hopen
    simp only [hms, hnow, Num.gt_some, decide_eq_true_eq] at hopen
    simp only [hms, hnow, Num.le_some, decide_eq_true_eq]
    omega

theorem CreditGrantLot.not_open_of_due {host : Host} {lot : CreditGrantLot}
    (h : lot.dueAt host asOf = true) : lot.openAt host asOf = false := by
  rw [CreditGrantLot.dueAt] at h
  rw [CreditGrantLot.openAt]
  rcases hdate : lot.expirationDate with _ | date
  · rw [hdate] at h
    cases h
  · rw [hdate] at h
    exact Num.gt_eq_false_of_le h

/-! ## What is left on each lot -/

namespace MemoryCreditLedger

/-- The balance of the lot `id` of a workspace. -/
def remainingOf (s : MemoryCreditLedger) (workspaceId id : String) : Int :=
  (s.lots.find? (·.isLot workspaceId id)).elim 0 (·.remainingCredits)

/-- The lots of all workspaces that are open at a moment. -/
def openLots (host : Host) (s : MemoryCreditLedger) (asOf : String) : List CreditGrantLot :=
  s.lots.filter (·.openAt host asOf)

variable {host : Host} {s : MemoryCreditLedger} {ws id : String} {lot : CreditGrantLot}

theorem remainingOf_lot (h : WellKept s) (hlot : lot ∈ s.lots) :
    s.remainingOf lot.workspaceId lot.id = lot.remainingCredits := by
  rw [remainingOf, find_lot h hlot]
  rfl

theorem remainingOf_setRemaining (hlot : s.lots.find? (·.isLot ws id) = some lot) (r : Int)
    (ws' id' : String) : (s.setRemaining ws id r).remainingOf ws' id' =
      if ws' = ws ∧ id' = id then r else s.remainingOf ws' id' := by
  split
  · next hsame =>
    obtain ⟨rfl, rfl⟩ := hsame
    have hfind : (s.setRemaining ws' id' r).lots.find? (·.isLot ws' id') =
        some { lot with remainingCredits := r, revision := lot.revision + 1 } := by
      rw [setRemaining, find?_updateFirst_self _ s.lots, hlot]
      · rfl
      · exact fun _ hx => hx
    rw [remainingOf, hfind]
    rfl
  · next hne => rw [remainingOf, find_setRemaining_ne r hne, remainingOf]

/-- A move of a lot that is not open changes no open lot. -/
theorem openLots_setRemaining (hlot : s.lots.find? (·.isLot ws id) = some lot)
    (hopen : lot.openAt host asOf = false) (r : Int) :
    (s.setRemaining ws id r).openLots host asOf = s.openLots host asOf := by
  obtain ⟨pre, post, hsplit, hupdate, -, -⟩ := updateFirst_split
    (fun lot : CreditGrantLot => { lot with remainingCredits := r, revision := lot.revision + 1 })
    hlot
  have hmoved : CreditGrantLot.openAt host
      { lot with remainingCredits := r, revision := lot.revision + 1 } asOf = false := hopen
  rw [openLots, setRemaining, hupdate, openLots, hsplit, List.filter_append, List.filter_append,
    List.filter_cons_of_neg (by simp [hmoved]), List.filter_cons_of_neg (by simp [hopen])]

end MemoryCreditLedger

section Moves

variable {host : Host} {s : MemoryCreditLedger}

/-- **Expiry empties the lots named**, and leaves every other balance. -/
theorem expireAll_remainingOf (family actorId correlationId createdAt : String) :
    ∀ {lots : List CreditGrantLot} {s : MemoryCreditLedger}, Expirable s lots → ∀ ws id,
      (expireAll family actorId correlationId createdAt lots s).remainingOf ws id =
        if (ws, id) ∈ lots.map (·.key) then 0 else s.remainingOf ws id
  | [], s, _, ws, id => by
    rw [List.map_nil, if_neg List.not_mem_nil]
    rfl
  | lot :: lots, s, h, ws, id => by
    have hfound := h.found lot List.mem_cons_self
    refine (expireAll_remainingOf family actorId correlationId createdAt h.tail ws id).trans ?_
    have hpush : ((s.setRemaining lot.workspaceId lot.id 0).push
        (expireTransaction family lot actorId correlationId createdAt)).remainingOf ws id =
          (s.setRemaining lot.workspaceId lot.id 0).remainingOf ws id := rfl
    rw [hpush, remainingOf_setRemaining hfound]
    have hkey : (ws, id) = lot.key ↔ ws = lot.workspaceId ∧ id = lot.id := Prod.mk_inj
    simp only [List.map_cons, List.mem_cons, hkey]
    by_cases hlots : (ws, id) ∈ lots.map (·.key)
    · rw [if_pos hlots, if_pos (.inr hlots)]
    · simp only [hlots, or_false, if_false]

/-- Expiry of lots that are not open leaves the open lots. -/
theorem expireAll_openLots (family actorId correlationId createdAt : String) {asOf : String} :
    ∀ {lots : List CreditGrantLot} {s : MemoryCreditLedger}, Expirable s lots →
      (∀ lot ∈ lots, lot.openAt host asOf = false) →
      (expireAll family actorId correlationId createdAt lots s).openLots host asOf =
        s.openLots host asOf
  | [], _, _, _ => rfl
  | lot :: lots, s, h, hopen => by
    refine (expireAll_openLots family actorId correlationId createdAt h.tail
      fun l hl => hopen l (List.mem_cons_of_mem _ hl)).trans ?_
    exact openLots_setRemaining (h.found lot List.mem_cons_self)
      (hopen lot List.mem_cons_self) 0

/-- Expiry pushes EXPIRE rows. -/
theorem expireAll_transactions (family actorId correlationId createdAt : String) :
    ∀ (lots : List CreditGrantLot) (s : MemoryCreditLedger),
      (expireAll family actorId correlationId createdAt lots s).transactions = s.transactions ++
        lots.map fun lot => expireTransaction family lot actorId correlationId createdAt
  | [], s => (List.append_nil _).symm
  | lot :: lots, s => by
    refine (expireAll_transactions family actorId correlationId createdAt lots _).trans ?_
    rw [push_transactions, setRemaining_transactions, List.append_assoc]
    rfl

/-- **What charging allocations does**: a USAGE row for each, and each lot lower by its amount. -/
structure ChargedEach (input : ConsumeCreditsInput) (op : String)
    (allocations : List CreditAllocation) (s : MemoryCreditLedger)
    (rows : List CreditLotTransaction) (s' : MemoryCreditLedger) : Prop where
  rows_eq : rows.map (fun row => CreditAllocation.mk row.lotId row.credits) = allocations
  recorded : s'.transactions = s.transactions ++ rows
  usages : ∀ row ∈ rows, row.isUsageOf input.workspaceId op = true
  charged : ∀ a ∈ allocations,
    s'.remainingOf input.workspaceId a.lotId = s.remainingOf input.workspaceId a.lotId - a.credits
  others : ∀ ws id, ¬ (ws = input.workspaceId ∧ id ∈ allocations.map (·.lotId)) →
    s'.remainingOf ws id = s.remainingOf ws id

theorem chargeEach_spec {input : ConsumeCreditsInput} {op : String} :
    ∀ {allocations : List CreditAllocation} {index : Nat} {s : MemoryCreditLedger},
      Chargeable s input.workspaceId allocations →
      Wp (chargeEach input op index allocations) s (ChargedEach input op allocations s)
        fun _ _ => False
  | [], _, s, _ => by
    simp only [chargeEach, wp_pure]
    exact ⟨rfl, (List.append_nil _).symm, fun _ hrow => absurd hrow List.not_mem_nil,
      fun _ ha => absurd ha List.not_mem_nil, fun _ _ _ => rfl⟩
  | a :: allocations, index, s, h => by
    obtain ⟨lot, hlot, -, -⟩ := h.found a List.mem_cons_self
    obtain ⟨hnew, hdistinct⟩ := List.nodup_cons.mp h.distinct
    obtain ⟨t, ht⟩ : ∃ t, t = usageTransaction input op index lot.id a.credits := ⟨_, rfl⟩
    obtain ⟨s₁, hs₁⟩ : ∃ s₁, s₁ = (s.setRemaining input.workspaceId a.lotId
      (lot.remainingCredits - a.credits)).push t := ⟨_, rfl⟩
    have hleft (ws id : String) : s₁.remainingOf ws id =
        if ws = input.workspaceId ∧ id = a.lotId then lot.remainingCredits - a.credits
        else s.remainingOf ws id := by
      rw [hs₁]
      exact remainingOf_setRemaining hlot _ ws id
    have hrest : Chargeable s₁ input.workspaceId allocations := by
      refine ⟨fun b hb => ?_, hdistinct⟩
      obtain ⟨l, hl, hb'⟩ := h.found b (List.mem_cons_of_mem _ hb)
      refine ⟨l, ?_, hb'⟩
      rw [hs₁, push_lots, find_setRemaining_ne, hl]
      rintro ⟨-, hsame⟩
      exact hnew (List.mem_map.mpr ⟨b, hb, hsame⟩)
    have hid := (isLot_eq_true.mp (List.find?_some hlot)).2
    have hbefore : s.remainingOf input.workspaceId a.lotId = lot.remainingCredits := by
      rw [remainingOf, hlot]
      rfl
    simp only [chargeEach, wp_bind, wp_get, hlot, wp_set, wp_pure, ← ht, ← hs₁]
    refine (chargeEach_spec hrest).mono (fun rows s' hc => ?_) fun _ _ hf => hf
    refine ⟨?_, ?_, fun row hrow => ?_, fun b hb => ?_, fun ws id hne => ?_⟩
    · rw [List.map_cons, hc.rows_eq, ht]
      simp only [usageTransaction, hid]
    · rw [hc.recorded, hs₁, push_transactions, setRemaining_transactions, List.append_assoc]
      rfl
    · rcases List.mem_cons.mp hrow with rfl | hrow
      · exact ht ▸ CreditLotTransaction.isUsageOf_eq_true.mpr ⟨rfl, rfl, rfl⟩
      · exact hc.usages row hrow
    · rcases List.mem_cons.mp hb with rfl | hb
      · rw [hc.others _ _ fun hmem => hnew hmem.2, hleft, if_pos ⟨rfl, rfl⟩, hbefore]
      · have hne : b.lotId ≠ a.lotId := fun hsame => hnew (List.mem_map.mpr ⟨b, hb, hsame⟩)
        rw [hc.charged b hb, hleft, if_neg fun hsame => hne hsame.2]
    · rw [List.map_cons, List.mem_cons, not_and, not_or] at hne
      rw [hc.others ws id fun hmem => (hne hmem.1).2 hmem.2, hleft,
        if_neg fun hsame => (hne hsame.1).1 hsame.2]

end Moves

/-! ## A consumption -/

/-- The checks of a consumption pass, and it is of operation `op`. -/
structure ConsumeAccepted (host : Host) (input : ConsumeCreditsInput) (op : String) : Prop where
  credits : assertCredits input.credits "credits" = .ok ()
  createdAt : assertTimestamp host input.createdAt "createdAt" = .ok ()
  key : normalizeCreditConsumeIdempotencyKey input.transactionId = .ok op

/-- The credits the lots unexpired at a moment hold. -/
def MemoryCreditLedger.availableAt (host : Host) (s : MemoryCreditLedger)
    (workspaceId asOf : String) : Int :=
  tally (·.remainingCredits) ((s.openLots host asOf).filter fun lot =>
    lot.workspaceId == workspaceId && 0 < lot.remainingCredits)

/-- **What a consumption records**: USAGE rows that sum to the request, each on a lot open at the
time and within its balance, and every lot before it exhausted afterwards. -/
structure FefoRecorded (host : Host) (s : MemoryCreditLedger) (input : ConsumeCreditsInput)
    (op : String) (rows : List CreditLotTransaction) (s' : MemoryCreditLedger) : Prop where
  total : tally (·.credits) rows = input.credits
  recorded : ∃ expired, s'.transactions = s.transactions ++ expired ++ rows ∧
    ∀ t ∈ expired, t.transactionType = .EXPIRE
  usages : ∀ row ∈ rows, row.isUsageOf input.workspaceId op = true
  distinct : (rows.map (·.lotId)).Nodup
  taken : ∀ row ∈ rows, ∃ lot ∈ s.lots, lot.workspaceId = input.workspaceId ∧ lot.id = row.lotId ∧
    lot.openAt host input.createdAt = true ∧ 0 < row.credits ∧ row.credits ≤ lot.remainingCredits ∧
    s'.remainingOf input.workspaceId lot.id = lot.remainingCredits - row.credits ∧
    ∀ before ∈ s.lots, before.workspaceId = input.workspaceId → before.Before host lot →
      s'.remainingOf input.workspaceId before.id ≤ 0
  untouched : ∀ lot ∈ s.lots, lot.openAt host input.createdAt = true →
    ¬ (lot.workspaceId = input.workspaceId ∧ lot.id ∈ rows.map (·.lotId)) →
    s'.remainingOf lot.workspaceId lot.id = lot.remainingCredits

/-- **First expired, first out**: a consumption of a fresh operation fails, with the unexpired lots
as they were, exactly when they hold less than the request, and records it otherwise. -/
structure FefoConsumed (host : Host) (s : MemoryCreditLedger) (input : ConsumeCreditsInput)
    (op : String) : Prop where
  fails_iff : (∃ e s', consume host input s = .error e s') ↔
    s.availableAt host input.workspaceId input.createdAt < input.credits
  failed : ∀ e s', consume host input s = .error e s' →
    s'.openLots host input.createdAt = s.openLots host input.createdAt
  returned : ∀ rows s', consume host input s = .ok rows s' → FefoRecorded host s input op rows s'

section Consumption

variable {host : Host} {s : MemoryCreditLedger} {input : ConsumeCreditsInput} {op : String}

/-- The lots a consumption expires first. -/
def dueLots (host : Host) (s : MemoryCreditLedger) (input : ConsumeCreditsInput) :
    List CreditGrantLot :=
  sortBy (compareCreditLotsForFefo host) (s.lots.filter fun lot =>
    lot.workspaceId == input.workspaceId && lot.dueAt host input.createdAt &&
      0 < lot.remainingCredits)

/-- The ledger once they are expired. -/
def expiredFor (host : Host) (s : MemoryCreditLedger) (input : ConsumeCreditsInput) :
    MemoryCreditLedger :=
  expireAll "expire" input.actorId input.correlationId input.createdAt (dueLots host s input) s

/-- The allocations of a consumption, on the ledger it has expired. -/
def allocationsFor (host : Host) (s : MemoryCreditLedger) (input : ConsumeCreditsInput) :
    List CreditAllocation :=
  allocateCreditConsumption host
    (s.lots.filter fun lot => lot.workspaceId == input.workspaceId &&
      lot.openAt host input.createdAt) input.credits

/-- **A consumption of a fresh operation**: expire, allocate, charge. -/
theorem consume_eq (h : ConsumeAccepted host input op)
    (hfresh : s.usagesOf input.workspaceId op = []) :
    consume host input s =
      if tally (·.credits) (allocationsFor host (expiredFor host s input) input) ≠
          input.credits then
        .error (.domain .INSUFFICIENT_ENTITLEMENT "Insufficient credits.") (expiredFor host s input)
      else
        chargeEach input op 0 (allocationsFor host (expiredFor host s input) input)
          (expiredFor host s input) := by
  have hnow : assertTimestamp host input.createdAt "now" = .ok () := by
    have hnow := h.createdAt
    simp only [assertTimestamp] at hnow ⊢
    split at hnow
    · cases hnow
    · next hok => rw [if_neg hok]
  have hreplay : s.transactions.filter (·.isUsageOf input.workspaceId op) = [] := hfresh
  have hexpire : expireLots host
      ⟨input.workspaceId, input.createdAt, input.actorId, input.correlationId⟩ s =
        .ok ((dueLots host s input).map fun lot =>
          expireTransaction "expire" lot input.actorId input.correlationId input.createdAt)
          (expiredFor host s input) := by
    rw [expireLots, hnow, check_ok_bind, get_bind]
    exact expireEach_eq _ _ _ _ _ _
  rw [consume, h.credits, check_ok_bind, h.createdAt, check_ok_bind, h.key, check_ok_bind, get_bind]
  simp only [hreplay, ne_eq, not_true_eq_false, if_false]
  rw [bind_of_ok hexpire, get_bind]
  by_cases htotal :
      tally (·.credits) (allocationsFor host (expiredFor host s input) input) ≠ input.credits
  · rw [if_pos htotal]
    exact congrFun (if_pos htotal) (expiredFor host s input)
  · rw [if_neg htotal]
    exact congrFun (if_neg htotal) (expiredFor host s input)

/-- **A replay changes nothing**, whatever amount it asks for. -/
theorem consume_replayed (hkey : normalizeCreditConsumeIdempotencyKey input.transactionId = .ok op)
    (hused : s.usagesOf input.workspaceId op ≠ []) : final (consume host input) s = s := by
  refine (wp_final (I := (· = s))).mp ?_
  simp only [consume, wp_bind, wp_check, wp_get]
  refine ⟨fun _ _ => ⟨fun _ _ => ⟨fun op' hop => ?_, fun _ _ => trivial⟩, fun _ _ => trivial⟩,
    fun _ _ => trivial⟩
  obtain rfl := Except.ok.inj (hkey.symm.trans hop)
  rw [wp_ite]
  refine ⟨fun _ => ?_, fun hnone => absurd (not_not.mp hnone) hused⟩
  rw [wp_ite, wp_throw, wp_pure]
  exact ⟨fun _ => rfl, fun _ => rfl⟩

/-! ### What is left after the expiry -/

theorem expirable_dueLots (hk : WellKept s) : Expirable s (dueLots host s input) :=
  expirable_of_perm hk (sortBy_perm _ _) fun lot hlot => by simp at hlot; exact hlot.2

variable {lot : CreditGrantLot}

theorem mem_dueLots : lot ∈ dueLots host s input ↔ lot ∈ s.lots ∧
    lot.workspaceId = input.workspaceId ∧ lot.dueAt host input.createdAt = true ∧
      0 < lot.remainingCredits := by
  rw [dueLots, (sortBy_perm _ _).mem_iff, List.mem_filter]
  simp [and_assoc]

theorem wellKept_expiredFor (hk : WellKept s) : WellKept (expiredFor host s input) := by
  have hchain : ReflTransGen (Posting host fun _ => True) s (expiredFor host s input) :=
    expireAll_postings _ _ _ _ (expirable_dueLots hk)
  exact hk.chain hchain

/-- The expiry leaves the open lots. -/
theorem openLots_expiredFor (hk : WellKept s) :
    (expiredFor host s input).openLots host input.createdAt = s.openLots host input.createdAt :=
  expireAll_openLots _ _ _ _ (expirable_dueLots hk) fun _ hlot =>
    CreditGrantLot.not_open_of_due (mem_dueLots.mp hlot).2.2.1

/-- A lot that is not open is empty after the expiry. -/
theorem remainingOf_expiredFor (hk : WellKept s) (hlot : lot ∈ s.lots)
    (hws : lot.workspaceId = input.workspaceId) (hdated : lot.Dated host) {now : Int}
    (hnow : host.dateParse input.createdAt = some now)
    (hopen : ¬ lot.openAt host input.createdAt = true) :
    (expiredFor host s input).remainingOf input.workspaceId lot.id ≤ 0 := by
  rw [expiredFor, expireAll_remainingOf _ _ _ _ (expirable_dueLots hk), ← hws]
  split
  · exact le_refl 0
  · next hnot =>
    rw [remainingOf_lot hk hlot]
    by_contra hpos
    exact hnot (List.mem_map.mpr ⟨lot, mem_dueLots.mpr ⟨hlot, hws,
      hdated.due_of_not_open hnow hopen, not_le.mp hpos⟩, rfl⟩)

/-! ### The allocations -/

/-- The lots that hold credits, first expired first. -/
def fefoQueue (host : Host) (s : MemoryCreditLedger) (input : ConsumeCreditsInput) :
    List CreditGrantLot :=
  sortBy (compareCreditLotsForFefo host)
    ((s.lots.filter fun lot => lot.workspaceId == input.workspaceId &&
      lot.openAt host input.createdAt).filter fun lot => 0 < lot.remainingCredits)

theorem mem_fefoQueue : lot ∈ fefoQueue host s input ↔ lot ∈ s.lots ∧
    lot.workspaceId = input.workspaceId ∧ lot.openAt host input.createdAt = true ∧
      0 < lot.remainingCredits := by
  rw [fefoQueue, (sortBy_perm _ _).mem_iff, List.mem_filter, List.mem_filter]
  simp [and_assoc]

theorem allocationsFor_eq (h : ConsumeAccepted host input op) :
    allocationsFor host s input = (greedy (·.remainingCredits) input.credits
      (fefoQueue host s input)).map fun (lot, amount) => ⟨lot.id, amount⟩ := by
  have hsafe : ¬ (!isSafeInteger input.credits || input.credits ≤ 0) = true := by
    have hcredits := h.credits
    rw [assertCredits] at hcredits
    split at hcredits
    · cases hcredits
    · assumption
  rw [allocationsFor, allocateCreditConsumption, if_neg hsafe]
  rfl

/-- The queue holds what is available. -/
theorem tally_fefoQueue : tally (·.remainingCredits) (fefoQueue host s input) =
    s.availableAt host input.workspaceId input.createdAt := by
  rw [fefoQueue, tally_perm _ (sortBy_perm _ _), availableAt, openLots, List.filter_filter,
    List.filter_filter]
  refine congrArg _ (List.filter_congr fun lot _ => ?_)
  ac_rfl

/-- **The request is met exactly when enough is available.** -/
theorem tally_allocationsFor (h : ConsumeAccepted host input op) :
    tally (·.credits) (allocationsFor host s input) =
      min input.credits (s.availableAt host input.workspaceId input.createdAt) := by
  have hwant : 0 ≤ input.credits := (assertCredits_ok h.credits).1.le
  rw [allocationsFor_eq h, tally_map, ← tally_fefoQueue]
  exact tally_greedy hwant fun lot hlot => (mem_fefoQueue.mp hlot).2.2.2

/-- **A lot is allocated only after every lot before it is**, each whole. -/
theorem allocated_before (hc : Collates host) (h : ConsumeAccepted host input op)
    (hdated : ∀ lot ∈ s.lots, lot.Dated host) {a : CreditAllocation}
    (ha : a ∈ allocationsFor host s input) : ∃ lot ∈ fefoQueue host s input, lot.id = a.lotId ∧
      0 < a.credits ∧ a.credits ≤ lot.remainingCredits ∧
        ∀ before ∈ fefoQueue host s input, before.Before host lot →
          ⟨before.id, before.remainingCredits⟩ ∈ allocationsFor host s input := by
  rw [allocationsFor_eq h] at ha ⊢
  obtain ⟨⟨lot, amount⟩, hx, rfl⟩ := List.mem_map.mp ha
  have hwant : 0 ≤ input.credits := (assertCredits_ok h.credits).1.le
  have hlot : lot ∈ fefoQueue host s input :=
    (greedy_sublist input.credits _).subset (List.mem_map.mpr ⟨_, hx, rfl⟩)
  obtain ⟨hpos, hle⟩ :=
    greedy_amount hwant (fun l hl => (mem_fefoQueue.mp hl).2.2.2) _ hx
  refine ⟨lot, hlot, rfl, hpos, hle, fun before hbefore hlt => ?_⟩
  have horder := transCmp_fefoOrder hc
  have hanswers : ∀ a ∈ (s.lots.filter fun lot => lot.workspaceId == input.workspaceId &&
        lot.openAt host input.createdAt).filter fun lot => 0 < lot.remainingCredits,
      ∀ b ∈ (s.lots.filter fun lot => lot.workspaceId == input.workspaceId &&
        lot.openAt host input.createdAt).filter fun lot => 0 < lot.remainingCredits,
      Answers (compareCreditLotsForFefo host) (fefoOrder host) a b := fun a ha b hb =>
    compareCreditLotsForFefo_answers
      (hdated a (List.mem_of_mem_filter (List.mem_of_mem_filter ha)))
      (hdated b (List.mem_of_mem_filter (List.mem_of_mem_filter hb)))
  have hsorted : (fefoQueue host s input).Pairwise fun a b => fefoOrder host b a ≠ .lt :=
    pairwise_of_answers hanswers
  have hbefore' : fefoOrder host before lot = .lt :=
    (compareCreditLotsForFefo_answers (hdated _ (mem_fefoQueue.mp hbefore).1)
      (hdated _ (mem_fefoQueue.mp hlot).1)).lt_iff.mp hlt
  refine List.mem_map.mpr ⟨(before, before.remainingCredits), ?_, rfl⟩
  exact greedy_exhausts (r := fun a b => fefoOrder host a b = .lt)
    (fun a hself => by
      rw [@Std.ReflCmp.compare_self _ (fefoOrder host)] at hself
      exact nomatch hself) hbefore' hsorted hx hbefore

end Consumption

section Consumed

variable {host : Host} {s : MemoryCreditLedger} {input : ConsumeCreditsInput} {op : String}

/-- Of one workspace, an allocation names the lot it was taken from. -/
theorem eq_of_id (hk : WellKept s) {a b : CreditGrantLot} (ha : a ∈ s.lots) (hb : b ∈ s.lots)
    (hws : a.workspaceId = b.workspaceId) (hid : a.id = b.id) : a = b :=
  List.inj_on_of_nodup_map hk.lotKeys ha hb (Prod.ext hws hid)

/-- An open lot holds after the expiry what it held before, and is a lot of either. -/
theorem open_expiredFor (hk : WellKept s) {lot : CreditGrantLot}
    (hopen : lot.openAt host input.createdAt = true) :
    lot ∈ (expiredFor host s input).lots ↔ lot ∈ s.lots := by
  have hsame := @openLots_expiredFor host _ input hk
  have hmem (s : MemoryCreditLedger) : lot ∈ s.openLots host input.createdAt ↔ lot ∈ s.lots := by
    rw [openLots, List.mem_filter, and_iff_left hopen]
  rw [← hmem, ← hmem s, hsame]

theorem dated_expiredFor (hk : WellKept s) (hdated : ∀ lot ∈ s.lots, lot.Dated host) :
    ∀ lot ∈ (expiredFor host s input).lots, lot.Dated host := by
  have hchain : ReflTransGen (Posting host fun _ => True) s (expiredFor host s input) :=
    expireAll_postings _ _ _ _ (expirable_dueLots hk)
  exact (chain_invariant (fun s => WellKept s ∧ ∀ lot ∈ s.lots, lot.Dated host)
    (fun _ _ hp hI => ⟨hI.1.posting hp, hp.dated hI.1 hI.2⟩) hchain ⟨hk, hdated⟩).2

theorem availableAt_expiredFor (hk : WellKept s) :
    (expiredFor host s input).availableAt host input.workspaceId input.createdAt =
      s.availableAt host input.workspaceId input.createdAt := by
  rw [availableAt, availableAt, openLots_expiredFor hk]

theorem chargeable_allocationsFor (hk : WellKept s) :
    Chargeable (expiredFor host s input) input.workspaceId
      (allocationsFor host (expiredFor host s input) input) :=
  chargeable_allocate (wellKept_expiredFor hk) (fun lot hlot => by simp at hlot; exact hlot.1) _

/-- **What the charged allocations record.** -/
theorem fefoRecorded_of_charged (hc : Collates host) (hk : WellKept s)
    (hdated : ∀ lot ∈ s.lots, lot.Dated host) (h : ConsumeAccepted host input op)
    (htotal : tally (·.credits) (allocationsFor host (expiredFor host s input) input) =
      input.credits) {rows : List CreditLotTransaction}
    (hcharged : ChargedEach input op (allocationsFor host (expiredFor host s input) input)
      (expiredFor host s input) rows s') : FefoRecorded host s input op rows s' := by
  obtain ⟨now, hnow⟩ := assertTimestamp_ok h.createdAt
  have hk₁ : WellKept (expiredFor host s input) := wellKept_expiredFor hk
  have hdated₁ : ∀ lot ∈ (expiredFor host s input).lots, lot.Dated host :=
    dated_expiredFor hk hdated
  have hids : rows.map (·.lotId) =
      (allocationsFor host (expiredFor host s input) input).map (·.lotId) := by
    rw [← hcharged.rows_eq, List.map_map]
    rfl
  have hbalance : ∀ lot ∈ s.lots, lot.openAt host input.createdAt = true →
      (expiredFor host s input).remainingOf lot.workspaceId lot.id = lot.remainingCredits :=
    fun lot hlot hopen => remainingOf_lot hk₁ ((open_expiredFor hk hopen).mpr hlot)
  refine ⟨?_, ?_, hcharged.usages, ?_, fun row hrow => ?_, fun lot hlot hopen hnot => ?_⟩
  · rw [← htotal, ← hcharged.rows_eq, tally_map]
  · refine ⟨_, by rw [hcharged.recorded, expiredFor, expireAll_transactions], fun t ht => ?_⟩
    obtain ⟨lot, -, rfl⟩ := List.mem_map.mp ht
    rfl
  · rw [hids]
    exact (chargeable_allocationsFor hk).distinct
  · have ha : CreditAllocation.mk row.lotId row.credits ∈
        allocationsFor host (expiredFor host s input) input := by
      rw [← hcharged.rows_eq]
      exact List.mem_map.mpr ⟨row, hrow, rfl⟩
    obtain ⟨lot, hlot, hid, hpos, hle, hbefore⟩ := allocated_before hc h hdated₁ ha
    have hid : lot.id = row.lotId := hid
    obtain ⟨hlot, hws, hopen, -⟩ := mem_fefoQueue.mp hlot
    have hlot' := (open_expiredFor hk hopen).mp hlot
    have hleft := hbalance lot hlot' hopen
    rw [hws] at hleft
    refine ⟨lot, hlot', hws, hid, hopen, hpos, hle, ?_, fun before hin hbws hlt => ?_⟩
    · have hcharge : s'.remainingOf input.workspaceId row.lotId =
          (expiredFor host s input).remainingOf input.workspaceId row.lotId - row.credits :=
        hcharged.charged _ ha
      rwa [← hid, hleft] at hcharge
    -- what has no allocation stands as the expiry left it
    have hstill (hout : before.id ∉
        (allocationsFor host (expiredFor host s input) input).map (·.lotId)) :
        s'.remainingOf input.workspaceId before.id =
          (expiredFor host s input).remainingOf input.workspaceId before.id :=
      hcharged.others _ _ fun hmem => hout hmem.2
    by_cases hbopen : before.openAt host input.createdAt = true
    · have hbleft := hbalance before hin hbopen
      rw [hbws] at hbleft
      by_cases hbpos : 0 < before.remainingCredits
      · have hqueue : before ∈ fefoQueue host (expiredFor host s input) input :=
          mem_fefoQueue.mpr ⟨(open_expiredFor hk hbopen).mpr hin, hbws, hbopen, hbpos⟩
        have hcharge := hcharged.charged _ (hbefore before hqueue hlt)
        rw [hcharge, hbleft, sub_self]
      · rw [hstill fun hmem => ?_, hbleft]
        · exact not_lt.mp hbpos
        obtain ⟨b, hb, hbid⟩ := List.mem_map.mp hmem
        obtain ⟨l, hl, hlid, -⟩ := allocated_before hc h hdated₁ hb
        obtain ⟨hl, hlws, -, hlpos⟩ := mem_fefoQueue.mp hl
        obtain rfl := eq_of_id hk₁ hl ((open_expiredFor hk hbopen).mpr hin)
          (hlws.trans hbws.symm) (hlid.trans hbid)
        exact hbpos hlpos
    · rw [hstill fun hmem => ?_]
      · exact remainingOf_expiredFor hk hin hbws (hdated before hin) hnow hbopen
      obtain ⟨b, hb, hbid⟩ := List.mem_map.mp hmem
      obtain ⟨l, hl, hlid, -⟩ := allocated_before hc h hdated₁ hb
      obtain ⟨hl, hlws, hlopen, -⟩ := mem_fefoQueue.mp hl
      obtain rfl := eq_of_id hk ((open_expiredFor hk hlopen).mp hl) hin
        (hlws.trans hbws.symm) (hlid.trans hbid)
      exact hbopen hlopen
  · rw [hids] at hnot
    rw [hcharged.others _ _ hnot]
    exact hbalance lot hlot hopen

/-- **First expired, first out**, on a well kept book whose dates can be read. -/
theorem consume_fefo (hc : Collates host) (hk : WellKept s)
    (hdated : ∀ lot ∈ s.lots, lot.Dated host) (h : ConsumeAccepted host input op)
    (hfresh : s.usagesOf input.workspaceId op = []) : FefoConsumed host s input op := by
  have heq := consume_eq h hfresh
  have hsum := tally_allocationsFor (s := expiredFor host s input) h
  rw [availableAt_expiredFor hk] at hsum
  by_cases htotal : tally (·.credits) (allocationsFor host (expiredFor host s input) input) =
      input.credits
  · rw [if_neg (not_not.mpr htotal)] at heq
    have hfit := @chargeable_allocationsFor host _ input hk
    obtain ⟨rows, s', hok, hcharged⟩ := (@chargeEach_spec _ op _ 0 _ hfit).returns
    rw [hok] at heq
    have hnever (e : Thrown) (s'' : MemoryCreditLedger) : consume host input s ≠ .error e s'' := by
      rw [heq]
      exact fun hne => nomatch hne
    refine ⟨⟨fun ⟨e, s'', herr⟩ => absurd herr (hnever e s''), fun hlt => by omega⟩,
      fun e s'' herr => absurd herr (hnever e s''), fun rows' s'' hrun => ?_⟩
    obtain ⟨rfl, rfl⟩ : rows = rows' ∧ s' = s'' := by simpa [heq] using hrun
    exact fefoRecorded_of_charged hc hk hdated h htotal hcharged
  · rw [if_pos htotal] at heq
    refine ⟨⟨fun _ => by omega, fun _ => ⟨_, _, heq⟩⟩, fun e s'' herr => ?_, fun rows s' hrun => ?_⟩
    · obtain ⟨-, rfl⟩ := EStateM.Result.error.inj (heq.symm.trans herr)
      exact openLots_expiredFor hk
    · rw [heq] at hrun
      exact nomatch hrun

/-- A consumption that returns leaves USAGE rows of its operation. -/
theorem usagesOf_consumed (hk : WellKept s) {rows : List CreditLotTransaction}
    (hrun : consume host input s = .ok rows s') :
    ∃ op, normalizeCreditConsumeIdempotencyKey input.transactionId = .ok op ∧
      s'.usagesOf input.workspaceId op ≠ [] := by
  have haccepted : Wp (consume host input) s (fun _ _ => ∃ op, ConsumeAccepted host input op)
      fun _ _ => True := by
    simp only [consume, wp_bind, wp_check, wp_get]
    refine ⟨fun _ hcredits => ⟨fun _ hcreated => ⟨fun op hop => ?_, fun _ _ => trivial⟩,
      fun _ _ => trivial⟩, fun _ _ => trivial⟩
    exact Wp.of_forall (fun _ _ => ⟨op, hcredits, hcreated, hop⟩) fun _ _ => trivial
  obtain ⟨op, h⟩ := haccepted.of_eq_ok hrun
  refine ⟨op, h.key, ?_⟩
  by_cases hfresh : s.usagesOf input.workspaceId op = []
  · have heq := consume_eq h hfresh
    rw [hrun] at heq
    by_cases htotal : tally (·.credits) (allocationsFor host (expiredFor host s input) input) =
        input.credits
    · rw [if_neg (not_not.mpr htotal)] at heq
      have hcharged := (chargeEach_spec (chargeable_allocationsFor hk)).of_eq_ok heq.symm
      rw [← hcharged.rows_eq, tally_map] at htotal
      have hpos := (assertCredits_ok h.credits).1
      rcases rows with _ | ⟨row, rows⟩
      · rw [tally_nil] at htotal
        omega
      · refine List.ne_nil_of_mem (a := row) (List.mem_filter.mpr ⟨?_, ?_⟩)
        · rw [hcharged.recorded]
          exact List.mem_append_right _ List.mem_cons_self
        · exact hcharged.usages row List.mem_cons_self
    · rw [if_pos htotal] at heq
      cases heq
  · have hsame := @consume_replayed host _ _ _ h.key hfresh
    rw [final, hrun] at hsame
    have hsame : s' = s := hsame
    rw [hsame]
    exact hfresh

end Consumed

/-! ## Every run -/

/-- **First expired, first out, on every ledger the operations reach**: a consumption of a fresh
operation, the order of its lots, and a second consumption under the key of a first. -/
structure FefoLedger (host : Host) (calls : List LedgerCall) : Prop where
  consumed : ∀ input op, ConsumeAccepted host input op →
    (runLedger host calls).usagesOf input.workspaceId op = [] →
    FefoConsumed host (runLedger host calls) input op
  ordered : StrictlyOrders (CreditGrantLot.Before host) (CreditGrantLot.Dated host)
    fun left right => host.localeCompare left.id right.id ≠ 0
  dated : ∀ lot ∈ (runLedger host calls).lots, lot.Dated host
  replayed : ∀ first rows s', consume host first (runLedger host calls) = .ok rows s' →
    ∀ later second, second.workspaceId = first.workspaceId →
      normalizeCreditConsumeIdempotencyKey second.transactionId =
        normalizeCreditConsumeIdempotencyKey first.transactionId →
      final (consume host second) (runLedger host (calls ++ .consume first :: later)) =
        runLedger host (calls ++ .consume first :: later)

theorem fefo_run {host : Host} (hc : Collates host) (calls : List LedgerCall) :
    FefoLedger host calls where
  consumed _ _ h hfresh := consume_fefo hc (wellKept_run calls) (dated_run host calls) h hfresh
  ordered := before_strictlyOrders hc
  dated := dated_run host calls
  replayed first rows s' hrun later second hws hkey := by
    obtain ⟨op, hop, hused⟩ := usagesOf_consumed (wellKept_run calls) hrun
    have hstep : LedgerCall.step host (runLedger host calls) (.consume first) = s' := by
      change final (consume host first) (runLedger host calls) = s'
      rw [final, hrun]
    have hk : WellKept s' := hstep ▸ (wellKept_run calls).step (.consume first)
    refine consume_replayed (hkey.trans hop) ?_
    rw [runLedger, runAll_append, ← runLedger, runAll_cons, hstep, hws]
    exact usagesOf_remain hk hused later

/-! ## At the edges -/

/-- A host whose collation ties a letter with its accent to the letter that has it built in, as
canonically equivalent texts are. -/
def tyingHost : Host :=
  { isoHost with
    localeCompare := fun a b =>
      isoHost.localeCompare (if a = "e\u0301" then "\u00e9" else a)
        (if b = "e\u0301" then "\u00e9" else b) }

theorem collates_tyingHost : Collates tyingHost where
  antisymm _ _ := collates_isoHost.antisymm _ _
  trans _ _ _ := collates_isoHost.trans _ _ _

/-- Two lots, the second for what the first cannot give. -/
theorem fefo_run_sample :
    FefoConsumed isoHost
      (runLedger isoHost [.grant (sampleGrant "a" 5), .grant (sampleGrant "b" 5)])
      (sampleConsume "task" 8) "consume:task" :=
  (fefo_run collates_isoHost _).consumed _ _
    ⟨by decide +kernel, by decide +kernel, by decide +kernel⟩ (by decide +kernel)

/-- What the unexpired lots of a workspace hold, those below zero included. -/
def MemoryCreditLedger.remainingAt (host : Host) (s : MemoryCreditLedger)
    (workspaceId asOf : String) : Int :=
  tally (·.remainingCredits) ((s.openLots host asOf).filter (·.workspaceId == workspaceId))

/-- **The bounds of the rule**: a request beyond the safe integers fails whatever the lots hold, a
lot a refund has taken below zero does not count against the others, and ids that collate alike
leave two lots untold. -/
theorem not_fefo_unconditional :
    (¬ ∀ calls input op, 0 < input.credits →
      assertTimestamp isoHost input.createdAt "createdAt" = .ok () →
      normalizeCreditConsumeIdempotencyKey input.transactionId = .ok op →
      (runLedger isoHost calls).usagesOf input.workspaceId op = [] →
      ((∃ e s', consume isoHost input (runLedger isoHost calls) = .error e s') →
        (runLedger isoHost calls).remainingAt isoHost input.workspaceId input.createdAt <
          input.credits)) ∧
    (¬ ∀ calls input op, ConsumeAccepted isoHost input op →
      (runLedger isoHost calls).usagesOf input.workspaceId op = [] →
      ((runLedger isoHost calls).remainingAt isoHost input.workspaceId input.createdAt <
          input.credits →
        ∃ e s', consume isoHost input (runLedger isoHost calls) = .error e s')) ∧
    ¬ ∀ host, Collates host → StrictlyOrders (CreditGrantLot.Before host)
      (CreditGrantLot.Dated host) fun left right => left.id ≠ right.id := by
  refine ⟨fun h => ?_, fun h => ?_, fun h => ?_⟩
  · have hlt := h [.grant (sampleGrant "a" 9007199254740991), .grant (sampleGrant "b" 1)]
      (sampleConsume "task" 9007199254740992) "consume:task" (by decide +kernel) (by decide +kernel)
      (by decide +kernel) (by decide +kernel) ⟨_, _, rfl⟩
    exact absurd hlt (by decide +kernel)
  · obtain ⟨e, s', hrun⟩ := h (spentTwice ++ [
        .refundUsageOperation (sampleRefund "r1" "task" (some 5)),
        .refundUsageOperation (sampleRefund "r2" "task" (some 4))])
      (sampleConsume "again" 5) "consume:again"
      ⟨by decide +kernel, by decide +kernel, by decide +kernel⟩ (by decide +kernel)
      (by decide +kernel)
    have hthrows : (result (consume isoHost (sampleConsume "again" 5)) (runLedger isoHost
        (spentTwice ++ [.refundUsageOperation (sampleRefund "r1" "task" (some 5)),
          .refundUsageOperation (sampleRefund "r2" "task" (some 4))]))).isOk = false := by
      rw [result, hrun]
      rfl
    exact absurd hthrows (by decide +kernel)
  · have hdated (id : String) :
        (grantedLot (sampleGrant id 5) "grant:").Dated tyingHost :=
      ⟨⟨1767225600000, (by decide +kernel :
          tyingHost.dateParse "2026-01-01T00:00:00.000Z" = some 1767225600000)⟩,
        fun date hdate => ⟨1798761600000, by
          rw [← Option.some_inj.mp hdate]
          decide +kernel⟩⟩
    rcases (h tyingHost collates_tyingHost).total _ _ (hdated "\u00e9") (hdated "e\u0301")
      (by decide +kernel) with ⟨n, hn, hcmp⟩ | ⟨n, hn, hcmp⟩
    · have hzero : compareCreditLotsForFefo tyingHost
          (grantedLot (sampleGrant "\u00e9" 5) "grant:")
          (grantedLot (sampleGrant "e\u0301" 5) "grant:") = some 0 := by decide +kernel
      rw [hzero, Option.some_inj] at hcmp
      omega
    · have hzero : compareCreditLotsForFefo tyingHost
          (grantedLot (sampleGrant "e\u0301" 5) "grant:")
          (grantedLot (sampleGrant "\u00e9" 5) "grant:") = some 0 := by decide +kernel
      rw [hzero, Option.some_inj] at hcmp
      omega

end MeiyeAgent
