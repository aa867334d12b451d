import MeiyeAgent.CreditBilling.LedgerSafety

/-!
# CreditBilling/CumulativeRefunds — what a refund of a cumulative amount leaves refunded

The amount of a refund is **cumulative**: what the operation is to have been refunded in all.  The
loop walks the USAGE rows and counts a row already answered by what that answer gave, so a row
answered in part is never topped up.

* `AnsweredOnce` — a USAGE row is answered by one REFUND row at most, and by no more than its
  credits.  Every posting keeps it, so no row is ever refunded beyond its credits.
* `settleRows` — the loop on the facts of the rows alone; `refundEach_settles` is the simulation.
* `cumulativeRefunds` — a call reaches the amount it asks for exactly when the amount is reachable
  (`AmountReachable`): it is not above what is refunded and open together, and the loop does not
  stop at it on its way down the recorded refunds.
-/

namespace MeiyeAgent

open Effect Table Text Relation MemoryCreditLedger

/-! ## What has been refunded -/

namespace MemoryCreditLedger

/-- What has been refunded against the USAGE row `usageId`. -/
def refundedAgainst (s : MemoryCreditLedger) (workspaceId usageId : String) : Int :=
  tally (·.credits) (s.transactions.filter (·.isRefundOf workspaceId usageId))

/-- What has been refunded of an operation. -/
def refundedTotal (s : MemoryCreditLedger) (workspaceId operationId : String) : Int :=
  tally (fun usage => s.refundedAgainst workspaceId usage.id) (s.usagesOf workspaceId operationId)

/-- What an operation has used. -/
def usedTotal (s : MemoryCreditLedger) (workspaceId operationId : String) : Int :=
  tally (·.credits) (s.usagesOf workspaceId operationId)

/-- The rows of an operation as the refund loop sees them. -/
def rowsOf (s : MemoryCreditLedger) (workspaceId operationId : String) : List (Int × Option Int) :=
  (s.usagesOf workspaceId operationId).map (s.rowFacts workspaceId)

end MemoryCreditLedger

/-- **The postcondition of a cumulative refund** of operation `operationId`: a call that returns
leaves at least the amount asked for refunded, and one that asks for more than before, within the
usage, returns and leaves that amount. -/
structure RefundReached (host : Host) (s : MemoryCreditLedger) (input : RefundUsageInput)
    (operationId : String) : Prop where
  returned : ∀ refunds s', refundUsageOperation host input s = .ok refunds s' →
    input.credits.getD (s.usedTotal input.workspaceId operationId) ≤
      s'.refundedTotal input.workspaceId operationId
  raised : s.refundedTotal input.workspaceId operationId <
      input.credits.getD (s.usedTotal input.workspaceId operationId) →
    input.credits.getD (s.usedTotal input.workspaceId operationId) ≤
      s.usedTotal input.workspaceId operationId →
    ∃ refunds s', refundUsageOperation host input s = .ok refunds s' ∧
      s'.refundedTotal input.workspaceId operationId =
        input.credits.getD (s.usedTotal input.workspaceId operationId)

/-! ## One answer a row -/

/-- **Every USAGE row is answered once at most**, and within its credits. -/
structure AnsweredOnce (s : MemoryCreditLedger) : Prop where
  positive : ∀ u ∈ s.transactions, u.transactionType = .USAGE → 0 < u.credits
  once : s.transactions.Pairwise fun a b =>
    ∀ ws id, a.isRefundOf ws id = true → b.isRefundOf ws id = false
  bounded : ∀ u ∈ s.transactions, u.transactionType = .USAGE →
    ∀ t ∈ s.transactions, t.isRefundOf u.workspaceId u.id = true → t.credits ≤ u.credits

namespace AnsweredOnce

variable {s : MemoryCreditLedger} {t : CreditLotTransaction} {ws id : String}

theorem empty : AnsweredOnce .empty where
  positive _ hu := absurd hu List.not_mem_nil
  once := List.Pairwise.nil
  bounded _ hu := absurd hu List.not_mem_nil

theorem setRemaining (h : AnsweredOnce s) (r : Int) : AnsweredOnce (s.setRemaining ws id r) where
  positive := h.positive
  once := h.once
  bounded := h.bounded

/-- A row that answers nothing answered before, and within the credits of what it answers. -/
theorem push (h : AnsweredOnce s) (hpos : t.transactionType = .USAGE → 0 < t.credits)
    (hopen : ∀ ws id, t.isRefundOf ws id = true → ¬ s.Refunded ws id)
    (hle : ∀ u ∈ s.transactions, u.transactionType = .USAGE →
      t.isRefundOf u.workspaceId u.id = true → t.credits ≤ u.credits)
    (hnew : t.transactionType = .USAGE → ¬ s.Refunded t.workspaceId t.id) :
    AnsweredOnce (s.push t) where
  positive u hu husage := by
    rcases List.mem_append.mp hu with hu | hu
    · exact h.positive u hu husage
    · rw [List.mem_singleton.mp hu] at husage ⊢
      exact hpos husage
  once := by
    refine List.pairwise_append.mpr ⟨h.once, List.pairwise_singleton _ _, ?_⟩
    intro a ha b hb ws id href
    rw [List.mem_singleton.mp hb]
    exact Bool.eq_false_iff.mpr fun href' => hopen ws id href' ⟨a, ha, href⟩
  bounded u hu husage t' ht' href := by
    rcases List.mem_append.mp hu with hu | hu <;> rcases List.mem_append.mp ht' with ht' | ht'
    · exact h.bounded u hu husage t' ht' href
    · rw [List.mem_singleton.mp ht'] at href ⊢
      exact hle u hu husage href
    · rw [List.mem_singleton.mp hu] at husage href
      exact absurd ⟨t', ht', href⟩ (hnew husage)
    · rw [List.mem_singleton.mp hu] at husage
      rw [List.mem_singleton.mp ht'] at href
      have hrefund := (CreditLotTransaction.isRefundOf_eq_true.mp href).2.1
      exact absurd (husage.symm.trans hrefund) (by simp)

/-- A row that is neither a usage nor a refund. -/
theorem push_other (h : AnsweredOnce s) (hu : t.transactionType ≠ .USAGE)
    (hr : t.transactionType ≠ .REFUND) : AnsweredOnce (s.push t) := by
  have hnone (ws id : String) : ¬ t.isRefundOf ws id = true := fun href =>
    hr (CreditLotTransaction.isRefundOf_eq_true.mp href).2.1
  exact h.push (fun husage => absurd husage hu) (fun ws id href => absurd href (hnone ws id))
    (fun u _ _ href => absurd href (hnone _ _)) (fun husage => absurd husage hu)

variable {row : CreditLotTransaction}

/-- A refund of an unanswered row of an operation, within its credits. -/
theorem push_refund (h : AnsweredOnce s) (hk : WellKept s) {op : String}
    {pre post : List CreditLotTransaction} (hrows : s.usagesOf ws op = pre ++ row :: post)
    (hopen : ¬ s.Refunded ws row.id) (hws : t.workspaceId = ws) (hr : t.transactionType = .REFUND)
    (hrel : t.relatedTransactionId = some row.id) (hle : t.credits ≤ row.credits) :
    AnsweredOnce (s.push t) := by
  obtain ⟨hrow, hrws, hru, -⟩ := mem_usagesOf.mp (hrows ▸ by simp : row ∈ s.usagesOf ws op)
  have href (ws' id : String) : t.isRefundOf ws' id = true → ws' = ws ∧ id = row.id := by
    rw [CreditLotTransaction.isRefundOf_eq_true, hrel, Option.some_inj, hws]
    exact fun h => ⟨h.1.symm, h.2.2.symm⟩
  have husage : t.transactionType ≠ .USAGE := by simp [hr]
  refine h.push (fun h => absurd h husage) (fun ws' id hid => ?_) (fun u hu hut hid => ?_)
    (fun h => absurd h husage)
  · obtain ⟨rfl, rfl⟩ := href ws' id hid
    exact hopen
  · obtain ⟨huws, huid⟩ := href _ _ hid
    obtain rfl := hk.usage_eq hu hrow hut hru (huws.trans hrws.symm) huid
    exact hle

/-- **Every posting keeps the answers single.** -/
theorem posting {host : Host} {ok : Int → Prop} {s s' : MemoryCreditLedger}
    (hp : Posting host ok s s') (hk : WellKept s) (h : AnsweredOnce s) : AnsweredOnce s' := by
  have hk' := hk.posting hp
  cases hp with
  | grant input key _ _ =>
    have hsame : AnsweredOnce { s with lots := s.lots ++ [grantedLot input key] } :=
      ⟨h.positive, h.once, h.bounded⟩
    exact hsame.push_other (by simp [grantTransaction]) (by simp [grantTransaction])
  | usage input op index lot amount _ hpos _ _ =>
    refine (h.setRemaining _).push (fun _ => hpos)
      (fun ws id href => absurd (CreditLotTransaction.isRefundOf_eq_true.mp href).2.1
        (by simp [usageTransaction]))
      (fun u _ _ href => absurd (CreditLotTransaction.isRefundOf_eq_true.mp href).2.1
        (by simp [usageTransaction])) fun _ href => ?_
    -- an answer to the new row would answer an older row of the same id
    obtain ⟨u, hu, hut, huws, huid⟩ := hk.refundAnswers _ _ href
    exact (List.pairwise_append.mp hk'.usageDistinct).2.2 u hu _ (List.mem_singleton_self _) hut rfl
      huws huid
  | refund input op index pre post row lot amount hrows _ hopen _ _ hle _ =>
    exact (h.setRemaining _).push_refund (hk.setRemaining _ _) hrows hopen rfl rfl rfl hle
  | refundUncredited input op index pre post row lot amount hrows _ hopen _ hle _ =>
    exact h.push_refund hk hrows hopen rfl rfl rfl hle
  | expire family _ _ _ lot _ _ =>
    exact (h.setRemaining 0).push_other (by simp [expireTransaction]) (by simp [expireTransaction])

theorem step {host : Host} (h : AnsweredOnce s) (hk : WellKept s) (call : LedgerCall) :
    AnsweredOnce (call.step host s) := by
  have hchain : ReflTransGen (Posting host fun _ => True) s (call.step host s) :=
    chain_call hk call fun _ _ => trivial
  exact (chain_invariant (fun s => WellKept s ∧ AnsweredOnce s)
    (fun _ _ hp hI => ⟨hI.1.posting hp, hI.2.posting hp hI.1⟩) hchain ⟨hk, h⟩).2

end AnsweredOnce

theorem answeredOnce_run (host : Host) (calls : List LedgerCall) :
    AnsweredOnce (runLedger host calls) :=
  (runAll_invariant (fun s => WellKept s ∧ AnsweredOnce s)
    (fun _ call h => ⟨h.1.step call, h.2.step h.1 call⟩) calls
    ⟨WellKept.empty, AnsweredOnce.empty⟩).2

/-! ## The loop on the facts of the rows -/

/-- What has been refunded of rows. -/
def refundedOf (rows : List (Int × Option Int)) : Int := tally (fun row => row.2.getD 0) rows

/-- What the rows have used. -/
def usedOf (rows : List (Int × Option Int)) : Int := tally Prod.fst rows

/-- What can be refunded of rows: the answers there are, and the rows not answered yet. -/
def refundableOf (rows : List (Int × Option Int)) : Int := tally (fun row => row.2.getD row.1) rows

/-- **The refund loop**, on the credits used and refunded row by row: the rows it leaves, and what
is left of the amount. -/
def settleRows : Option Int → List (Int × Option Int) → List (Int × Option Int) × Option Int
  | left, [] => ([], left)
  | left, row :: rows =>
    if left = some 0 then (row :: rows, left)
    else
      let refunded := row.2.getD (refundAmount left row.1)
      let rest := settleRows (left.map (· - refunded)) rows
      ((row.1, some refunded) :: rest.1, rest.2)

section Loop

variable {host : Host} {s : MemoryCreditLedger}

namespace AnsweredOnce

variable {ws : String}

theorem refundedAgainst_eq (h : AnsweredOnce s) (row : CreditLotTransaction) :
    s.refundedAgainst ws row.id = (s.rowFacts ws row).2.getD 0 := by
  have hone : s.transactions.filter (·.isRefundOf ws row.id) =
      (s.transactions.find? (·.isRefundOf ws row.id)).toList :=
    filter_of_pairwise (h.once.imp fun hab => hab ws row.id)
  rw [refundedAgainst, hone, rowFacts]
  cases s.transactions.find? (·.isRefundOf ws row.id) <;> simp

/-- No row is refunded beyond its credits. -/
theorem refundedAgainst_le (h : AnsweredOnce s) (hrow : row ∈ s.transactions)
    (husage : row.transactionType = .USAGE) :
    s.refundedAgainst row.workspaceId row.id ≤ row.credits := by
  rw [h.refundedAgainst_eq, rowFacts]
  rcases hfind : s.transactions.find? (·.isRefundOf row.workspaceId row.id) with _ | t
  · rw [hfind]
    exact (h.positive row hrow husage).le
  · rw [hfind]
    exact h.bounded row hrow husage t (List.mem_of_find?_eq_some hfind) (List.find?_some hfind)

theorem refundedTotal_eq (h : AnsweredOnce s) (op : String) :
    s.refundedTotal ws op = refundedOf (s.rowsOf ws op) := by
  rw [refundedTotal, refundedOf, rowsOf, tally_map]
  exact tally_congr fun row _ => h.refundedAgainst_eq row

end AnsweredOnce

theorem usedTotal_eq (ws op : String) : s.usedTotal ws op = usedOf (s.rowsOf ws op) := by
  rw [usedTotal, usedOf, rowsOf, tally_map]
  rfl

variable {input : RefundUsageInput}

/-- A row refunded on a well kept book: its lot is there, so nothing is thrown. -/
theorem refundRow_returns (h : WellKept s) {index : Nat} (hrow : row ∈ s.transactions)
    (hws : row.workspaceId = input.workspaceId) (credits : Int) :
    Wp (refundRow host input index row credits) s (fun t _ => t.credits = credits)
      fun _ _ => False := by
  obtain ⟨lot, hlot, hkey⟩ := List.mem_map.mp (h.rowLots row hrow)
  obtain ⟨hlws, hlid⟩ := Prod.ext_iff.mp hkey
  have hfind : s.lots.find? (·.isLot input.workspaceId row.lotId) = some lot := by
    have := find_lot h hlot
    rwa [show lot.workspaceId = input.workspaceId from hlws.trans hws,
      show lot.id = row.lotId from hlid] at this
  simp only [refundRow, wp_bind, wp_get, hfind]
  split <;> simp only [wp_bind, wp_set, wp_pure, refundTransaction]

/-- **The loop settles the facts of its rows**, and never throws on a well kept book. -/
theorem refundEach_settles {input : RefundUsageInput} {op : String} :
    ∀ {rest pre : List CreditLotTransaction} {left : Option Int} {index : Nat}
      {s : MemoryCreditLedger}, WellKept s →
      s.usagesOf input.workspaceId op = pre ++ rest →
      (∀ u ∈ pre, s.Refunded input.workspaceId u.id) →
      Wp (refundEach host input left index rest) s
        (fun loop s' =>
          s'.rowsOf input.workspaceId op = pre.map (s.rowFacts input.workspaceId) ++
            (settleRows left (rest.map (s.rowFacts input.workspaceId))).1 ∧
          loop.2 = (settleRows left (rest.map (s.rowFacts input.workspaceId))).2)
        fun _ _ => False
  | [], pre, left, _, s, _, hrows, _ => by
    simp only [refundEach, wp_pure, settleRows, List.map_nil, List.append_nil, and_true]
    rw [rowsOf, hrows, List.append_nil]
  | row :: rest, pre, left, index, s, h, hrows, hpre => by
    have hsplit : s.usagesOf input.workspaceId op = (pre ++ [row]) ++ rest := by simp [hrows]
    rw [refundEach]
    by_cases hstop : left = some 0
    · rw [if_pos hstop, wp_pure, rowsOf, hrows, List.map_append, List.map_cons, settleRows,
        if_pos hstop]
      exact ⟨rfl, rfl⟩
    rw [if_neg hstop]
    simp only [wp_bind, wp_get, List.map_cons, settleRows, if_neg hstop]
    cases hfind : s.transactions.find? (·.isRefundOf input.workspaceId row.id) with
    | some existing =>
      -- answered before: the row only lowers what is left
      have hpre' := List.forall_mem_append.mpr
        ⟨hpre, List.forall_mem_singleton.mpr (refunded_iff_find.mpr ⟨_, hfind⟩)⟩
      have hfacts : s.rowFacts input.workspaceId row = (row.credits, some existing.credits) := by
        rw [rowFacts, hfind]
        rfl
      simp only [wp_bind, wp_pure, hfacts, Option.getD_some]
      refine (refundEach_settles h hsplit hpre').mono (fun loop s' hs' => ?_) fun _ _ hc => hc
      refine ⟨hs'.1.trans ?_, hs'.2⟩
      rw [List.map_append, List.map_singleton, hfacts, List.append_assoc]
      rfl
    | none =>
      have hopen : ¬ s.Refunded input.workspaceId row.id := by
        rw [refunded_iff_find, hfind]
        simp
      have hfacts : s.rowFacts input.workspaceId row = (row.credits, none) := by
        rw [rowFacts, hfind]
        rfl
      obtain ⟨hrow, hrws, hru, -⟩ := mem_usagesOf.mp
        (hrows ▸ by simp : row ∈ s.usagesOf input.workspaceId op)
      obtain ⟨amount, hamount⟩ : ∃ amount, amount = refundAmount left row.credits := ⟨_, rfl⟩
      have hle : amount ≤ row.credits := hamount ▸ refundAmount_le _ _
      simp only [wp_bind, wp_pure, hfacts, Option.getD_none, ← hamount]
      have hposts := @wp_refundRow host (fun _ => True) s _ op index pre rest row amount hrows hpre
        hopen hle trivial
      refine (hposts.and (refundRow_returns h hrow hrws amount)).mono (fun t s₁ hs₁ => ?_)
        fun _ _ hc => hc.2
      obtain ⟨⟨hpost, htrans, htws, htr, htrel⟩, htc⟩ := hs₁
      have hnext := answersNext hrows hpre hfind htrans htws htr htrel
      have hdist := h.usagesOf_distinct input.workspaceId op
      rw [hrows] at hdist
      have hbefore : (pre ++ [row]).map (s₁.rowFacts input.workspaceId) =
          pre.map (s.rowFacts input.workspaceId) ++ [(row.credits, some amount)] := by
        rw [List.map_append, List.map_singleton, hnext.facts, htc]
        exact congrArg (· ++ _) (List.map_congr_left fun u hu => hnext.others u
          ((List.pairwise_append.mp hdist).2.2 u hu row List.mem_cons_self))
      refine (refundEach_settles (h.posting hpost) hnext.usages hnext.refunded).mono
        (fun loop s' hs' => ?_) fun _ _ hc => hc
      rw [hbefore, hnext.rest h hrows, List.append_assoc] at hs'
      exact hs'

end Loop

/-! ## Which amounts are reached -/

/-- **The cumulative amount is reachable** from the rows of the operation: it is within what is
refunded and open together (or above the whole usage, which is refused), and where it is above what
is refunded, no first recorded refunds add up to it. -/
structure AmountReachable (rows : List (Int × Option Int)) (credits : Option Int) : Prop where
  within : credits.getD (usedOf rows) ≤ refundableOf rows ∨ usedOf rows < credits.getD (usedOf rows)
  notPassed : ∀ c ∈ credits, refundedOf rows < c →
    ∀ n ≤ (rows.filterMap Prod.snd).length, ((rows.filterMap Prod.snd).take n).sum ≠ c

/-- What the amount asked for is to the rows before and after: `RefundReached` on facts alone. -/
structure RowsReached (rows : List (Int × Option Int)) (credits : Option Int) : Prop where
  returned : (settleRows credits rows).2 = none ∨ (settleRows credits rows).2 = some 0 →
    credits.getD (usedOf rows) ≤ refundedOf (settleRows credits rows).1
  raised : refundedOf rows < credits.getD (usedOf rows) → credits.getD (usedOf rows) ≤ usedOf rows →
    ((settleRows credits rows).2 = none ∨ (settleRows credits rows).2 = some 0) ∧
      refundedOf (settleRows credits rows).1 = credits.getD (usedOf rows)

/-- The facts of an operation: positive usages, each answered within its credits, the answered ones
first. -/
structure RefundFacts (done todo : List (Int × Option Int)) : Prop where
  answered : ∀ row ∈ done, ∃ refunded ≤ row.1, row.2 = some refunded
  unanswered : ∀ row ∈ todo, 0 < row.1 ∧ row.2 = none

section Amounts

variable {done todo : List (Int × Option Int)}

theorem refundedOf_append (rows rows' : List (Int × Option Int)) :
    refundedOf (rows ++ rows') = refundedOf rows + refundedOf rows' := tally_append ..

/-- What was recorded adds up to what is refunded. -/
theorem sum_recorded : ∀ {done : List (Int × Option Int)},
    (∀ row ∈ done, ∃ refunded ≤ row.1, row.2 = some refunded) →
    (done.filterMap Prod.snd).sum = refundedOf done
  | [], _ => rfl
  | (used, refunded) :: done, h => by
    obtain ⟨e, -, rfl⟩ : ∃ e ≤ used, refunded = some e := h _ List.mem_cons_self
    have ih := sum_recorded fun row hrow => h row (List.mem_cons_of_mem _ hrow)
    rw [List.filterMap_cons_some (rfl : Prod.snd (used, some e) = some e), List.sum_cons, ih]
    rfl

/-- Rows without an answer have been refunded nothing. -/
theorem refundedOf_unanswered {rows : List (Int × Option Int)} (h : ∀ row ∈ rows, row.2 = none) :
    refundedOf rows = 0 := by
  refine tally_zero fun row hrow => ?_
  rw [h row hrow]
  rfl

/-- Without an amount every row is answered whole. -/
theorem settle_whole : ∀ rows : List (Int × Option Int),
    refundedOf (settleRows none rows).1 = refundableOf rows ∧ (settleRows none rows).2 = none
  | [] => ⟨rfl, rfl⟩
  | row :: rows => by
    obtain ⟨hsum, hleft⟩ := settle_whole rows
    rw [settleRows, if_neg (by simp)]
    refine ⟨?_, hleft⟩
    simp only [refundedOf, refundableOf, tally_cons, Option.getD_some] at hsum ⊢
    exact congrArg _ hsum

/-- Nothing refunded yet: the rows give what is asked for, as far as they go. -/
theorem settle_unanswered : ∀ {todo : List (Int × Option Int)} {c : Int}, 0 ≤ c →
    (∀ row ∈ todo, 0 < row.1 ∧ row.2 = none) →
    refundedOf (settleRows (some c) todo).1 = min c (usedOf todo) ∧
      (settleRows (some c) todo).2 = some (c - min c (usedOf todo))
  | [], c, hc, _ => by
    have : min c (usedOf []) = 0 := min_eq_right hc
    rw [this]
    exact ⟨rfl, by simp [settleRows]⟩
  | (used, refunded) :: rows, c, hc, h => by
    obtain ⟨hpos, rfl⟩ : 0 < used ∧ refunded = none := h _ List.mem_cons_self
    have hrows : ∀ row ∈ rows, 0 < row.1 ∧ row.2 = none :=
      fun row hrow => h row (List.mem_cons_of_mem _ hrow)
    have hnn : 0 ≤ usedOf rows := tally_nonneg fun row hrow => (hrows row hrow).1.le
    have hused : usedOf ((used, none) :: rows) = used + usedOf rows := tally_cons ..
    by_cases hstop : c = 0
    · have hzero := refundedOf_unanswered fun row hrow => (h row hrow).2
      rw [settleRows, if_pos (congrArg some hstop), hzero, hused, min_eq_left (by omega), hstop]
      exact ⟨rfl, rfl⟩
    obtain ⟨hsum, hleft⟩ := settle_unanswered (c := c - min used c) (by omega) hrows
    rw [settleRows, if_neg (by simpa using hstop)]
    simp only [Option.getD_none, refundAmount, Option.map_some, refundedOf, tally_cons,
      Option.getD_some] at hsum ⊢
    rw [hleft, hsum, hused]
    exact ⟨by omega, congrArg some (by omega)⟩

/-- Asked for less than nothing, the first row is answered with all of it. -/
theorem settle_below {row : Int × Option Int} {c : Int} (hc : c < 0) (hrow : 0 < row.1)
    (hopen : row.2 = none) (htodo : ∀ r ∈ todo, r.2 = none) :
    refundedOf (settleRows (some c) (row :: todo)).1 = c := by
  have hmin : min row.1 c = c := min_eq_right (by omega)
  have hzero := refundedOf_unanswered htodo
  have hrest : settleRows (some 0) todo = (todo, some 0) := by
    cases todo <;> simp [settleRows]
  rw [settleRows, if_neg (by simp; omega), hopen]
  simp only [Option.getD_none, refundAmount, hmin, Option.map_some, sub_self, hrest]
  rw [refundedOf, tally_cons, ← refundedOf, hzero]
  exact add_zero c

/-- **Over the answered rows** the loop either stops at a partial sum of the recorded refunds,
having changed nothing, or goes on to the open rows with what is above all of them. -/
theorem settle_answered : ∀ {done : List (Int × Option Int)} {c : Int},
    (∀ row ∈ done, ∃ refunded ≤ row.1, row.2 = some refunded) →
    ((∃ n ≤ (done.filterMap Prod.snd).length, ((done.filterMap Prod.snd).take n).sum = c) ∧
        settleRows (some c) (done ++ todo) = (done ++ todo, some 0)) ∨
      (∀ n ≤ (done.filterMap Prod.snd).length, ((done.filterMap Prod.snd).take n).sum ≠ c) ∧
        settleRows (some c) (done ++ todo) =
          (done ++ (settleRows (some (c - refundedOf done)) todo).1,
            (settleRows (some (c - refundedOf done)) todo).2)
  | [], c, _ => by
    by_cases hstop : c = 0
    · refine .inl ⟨⟨0, le_refl _, hstop.symm⟩, ?_⟩
      subst hstop
      cases todo <;> simp [settleRows]
    · refine .inr ⟨fun n _ => ?_, ?_⟩
      · simpa using Ne.symm hstop
      · simp [refundedOf]
  | (used, refunded) :: done, c, h => by
    obtain ⟨e, -, rfl⟩ : ∃ e ≤ used, refunded = some e := h _ List.mem_cons_self
    have hdone := fun row hrow => h row (List.mem_cons_of_mem _ hrow)
    simp only [List.cons_append, List.filterMap_cons, List.length_cons]
    by_cases hstop : c = 0
    · refine .inl ⟨⟨0, Nat.zero_le _, hstop.symm⟩, ?_⟩
      rw [settleRows, if_pos (congrArg some hstop), hstop]
    have hsum : refundedOf ((used, some e) :: done) = e + refundedOf done := tally_cons ..
    rw [settleRows, if_neg (by simpa using hstop)]
    simp only [Option.getD_some, Option.map_some]
    rcases settle_answered (c := c - e) hdone with ⟨⟨n, hn, htake⟩, hrest⟩ | ⟨hne, hrest⟩
    · refine .inl ⟨⟨n + 1, Nat.succ_le_succ hn, ?_⟩, ?_⟩
      · rw [List.take_succ_cons, List.sum_cons, htake]
        omega
      · rw [hrest]
    · refine .inr ⟨fun n hn => ?_, ?_⟩
      · rcases n with _ | n
        · exact Ne.symm hstop
        · have := hne n (Nat.le_of_succ_le_succ hn)
          rw [List.take_succ_cons, List.sum_cons]
          omega
      · rw [hrest, hsum, sub_sub]

namespace RefundFacts

variable (h : RefundFacts done todo)

include h

theorem recorded : (done ++ todo).filterMap Prod.snd = done.filterMap Prod.snd := by
  have hopen : todo.filterMap Prod.snd = [] :=
    List.filterMap_eq_nil_iff.mpr fun row hrow => (h.unanswered row hrow).2
  rw [List.filterMap_append, hopen, List.append_nil]

theorem refunded : refundedOf (done ++ todo) = refundedOf done := by
  rw [refundedOf_append, refundedOf_unanswered fun row hrow => (h.unanswered row hrow).2, add_zero]

/-- What can be refunded: the answers, and all of the open rows. -/
theorem refundable : refundableOf (done ++ todo) = refundedOf done + usedOf todo := by
  have hdone : refundableOf done = refundedOf done := by
    refine tally_congr fun row hrow => ?_
    obtain ⟨e, -, he⟩ := h.answered row hrow
    rw [he]
    rfl
  have htodo : refundableOf todo = usedOf todo := by
    refine tally_congr fun row hrow => ?_
    rw [(h.unanswered row hrow).2]
    rfl
  rw [refundableOf, tally_append, ← refundableOf, ← refundableOf, hdone, htodo]

theorem used_nonneg : 0 ≤ usedOf todo := tally_nonneg fun row hrow => (h.unanswered row hrow).1.le

/-- No more can be refunded than was used. -/
theorem refundable_le : refundedOf done + usedOf todo ≤ usedOf (done ++ todo) := by
  have hle : refundedOf done ≤ usedOf done := by
    refine tally_le_tally fun row hrow => ?_
    obtain ⟨e, hle, he⟩ := h.answered row hrow
    rw [he]
    exact hle
  have hsum : usedOf (done ++ todo) = usedOf done + usedOf todo := tally_append ..
  omega

/-- Without an amount everything refundable is refunded. -/
theorem settled_whole : RowsReached (done ++ todo) none ↔ AmountReachable (done ++ todo) none := by
  obtain ⟨hsum, hleft⟩ := settle_whole (done ++ todo)
  have hle := h.refundable_le
  rw [← h.refundable] at hle
  refine ⟨fun hs => ⟨.inl (hsum ▸ hs.returned (.inl hleft)), fun c hc => by simp at hc⟩,
    fun hr => ?_⟩
  have hin := hr.within
  rw [Option.getD_none] at hin
  refine ⟨fun _ => ?_, fun _ _ => ⟨.inl hleft, ?_⟩⟩ <;>
    rw [hsum, Option.getD_none] <;> omega

variable {c : Int}

/-- At a partial sum of the recorded refunds nothing is refunded, and the call returns. -/
theorem settled_passed
    (hpassed : ∃ n ≤ (done.filterMap Prod.snd).length, ((done.filterMap Prod.snd).take n).sum = c)
    (hsettle : settleRows (some c) (done ++ todo) = (done ++ todo, some 0)) :
    RowsReached (done ++ todo) (some c) ↔ AmountReachable (done ++ todo) (some c) := by
  have hnn := h.used_nonneg
  constructor
  · intro hs
    have hle := hs.returned (.inr (congrArg Prod.snd hsettle))
    rw [hsettle, h.refunded, Option.getD_some] at hle
    refine ⟨.inl ?_, fun c' hc' hlt => ?_⟩
    · rw [h.refundable, Option.getD_some]
      omega
    · rw [h.refunded, ← Option.mem_some_iff.mp hc'] at hlt
      omega
  · intro hr
    have hle : c ≤ refundedOf done := by
      by_contra hlt
      obtain ⟨n, hn, htake⟩ := hpassed
      refine hr.notPassed c rfl (by rw [h.refunded]; omega) n ?_ ?_ <;> rw [h.recorded]
      exacts [hn, htake]
    refine ⟨fun _ => ?_, fun hlt => ?_⟩
    · rw [hsettle, h.refunded]
      exact hle
    · rw [h.refunded] at hlt
      exact absurd hle (not_le.mpr hlt)

/-- Raised, the open rows give the difference as far as they go. -/
theorem settled_raised (hup : refundedOf done < c) (hsettle : settleRows (some c) (done ++ todo) =
      (done ++ (settleRows (some (c - refundedOf done)) todo).1,
        (settleRows (some (c - refundedOf done)) todo).2)) : RowsReached (done ++ todo) (some c) ↔
      c ≤ refundedOf done + usedOf todo ∨ usedOf (done ++ todo) < c := by
  have hnn := h.used_nonneg
  obtain ⟨hsum, hleft⟩ := settle_unanswered (c := c - refundedOf done) (by omega) h.unanswered
  have hall : refundedOf (settleRows (some c) (done ++ todo)).1 =
      refundedOf done + min (c - refundedOf done) (usedOf todo) := by
    rw [hsettle, refundedOf_append, hsum]
  have hrest : (settleRows (some c) (done ++ todo)).2 = none ∨
      (settleRows (some c) (done ++ todo)).2 = some 0 ↔ c ≤ refundedOf done + usedOf todo := by
    rw [hsettle, hleft, Option.some_inj]
    simp only [reduceCtorEq, false_or]
    omega
  constructor
  · intro hs
    by_contra hnot
    have hfail := (hs.raised (by rw [h.refunded, Option.getD_some]; exact hup)
      (by rw [Option.getD_some]; omega)).1
    rw [hrest] at hfail
    omega
  · intro hw
    refine ⟨fun hret => ?_, fun _ hle => ?_⟩
    · rw [hrest] at hret
      rw [hall, Option.getD_some]
      omega
    · rw [Option.getD_some] at hle
      rw [hrest, hall, Option.getD_some]
      omega

/-- Lowered, an open row takes the negative rest, and without an open row the call throws. -/
theorem settled_lowered (hdown : c < refundedOf done)
    (hsettle : settleRows (some c) (done ++ todo) =
      (done ++ (settleRows (some (c - refundedOf done)) todo).1,
        (settleRows (some (c - refundedOf done)) todo).2)) :
    RowsReached (done ++ todo) (some c) := by
  refine ⟨fun hret => ?_, fun hlt => ?_⟩
  · rcases todo with _ | ⟨row, rows⟩
    · rw [hsettle] at hret
      simp only [settleRows, reduceCtorEq, Option.some_inj, false_or] at hret
      omega
    · obtain ⟨hpos, hopen⟩ := h.unanswered row List.mem_cons_self
      have hsum := settle_below (c := c - refundedOf done) (by omega) hpos hopen
        fun r hr => (h.unanswered r (List.mem_cons_of_mem _ hr)).2
      rw [hsettle, refundedOf_append, hsum, Option.getD_some]
      omega
  · rw [h.refunded, Option.getD_some] at hlt
    omega

/-- **An amount is settled exactly when it is reachable.** -/
theorem settled_iff {credits : Option Int} :
    RowsReached (done ++ todo) credits ↔ AmountReachable (done ++ todo) credits := by
  rcases credits with _ | c
  · exact h.settled_whole
  rcases @settle_answered todo _ c h.answered with
    ⟨hpassed, hsettle⟩ | ⟨hne, hsettle⟩
  · exact h.settled_passed hpassed hsettle
  have hreach : AmountReachable (done ++ todo) (some c) ↔
      c ≤ refundedOf done + usedOf todo ∨ usedOf (done ++ todo) < c := by
    rw [← h.refundable]
    refine ⟨fun hr => hr.within, fun hw => ⟨hw, fun c' hc' _ => ?_⟩⟩
    rw [← Option.mem_some_iff.mp hc', h.recorded]
    exact hne
  rw [hreach]
  -- the whole of the recorded refunds is a partial sum too
  have hlast : refundedOf done ≠ c := by
    rw [← sum_recorded h.answered, ← List.take_length (l := done.filterMap Prod.snd)]
    exact hne _ (le_refl _)
  rcases lt_or_gt_of_ne hlast with hup | hdown
  · exact h.settled_raised hup hsettle
  · have hnn := h.used_nonneg
    exact iff_of_true (h.settled_lowered hdown hsettle) (.inl (by omega))

end RefundFacts

end Amounts

/-! ## The refunds of the ledger -/

section Refunds

variable {host : Host} {s : MemoryCreditLedger} {ws op : String}

/-- The rows of an operation on a well kept book are such facts. -/
theorem rowsOf_facts (hk : WellKept s) (h : AnsweredOnce s) (ws op : String) :
    ∃ done todo, s.rowsOf ws op = done ++ todo ∧ RefundFacts done todo := by
  obtain ⟨done, todo, hrows, hdone, htodo⟩ := exists_prefix_split (hk.refundPrefix ws op)
  have hmem : ∀ u ∈ done ++ todo, u ∈ s.transactions ∧ u.workspaceId = ws ∧
      u.transactionType = .USAGE := by
    intro u hu
    obtain ⟨hu, hws, husage, -⟩ := mem_usagesOf.mp (hrows ▸ hu : u ∈ s.usagesOf ws op)
    exact ⟨hu, hws, husage⟩
  refine ⟨_, _, by rw [rowsOf, hrows, List.map_append], ⟨fun row hrow => ?_, fun row hrow => ?_⟩⟩
  · obtain ⟨u, hu, rfl⟩ := List.mem_map.mp hrow
    obtain ⟨hin, huws, husage⟩ := hmem u (List.mem_append_left _ hu)
    obtain ⟨t, ht⟩ := refunded_iff_find.mp (hdone u hu)
    refine ⟨t.credits, ?_, by rw [rowFacts, ht]; rfl⟩
    have href := List.find?_some ht
    rw [← huws] at href
    exact h.bounded u hin husage t (List.mem_of_find?_eq_some ht) href
  · obtain ⟨u, hu, rfl⟩ := List.mem_map.mp hrow
    obtain ⟨hin, -, husage⟩ := hmem u (List.mem_append_right _ hu)
    refine ⟨h.positive u hin husage, Option.map_eq_none_iff.mpr ?_⟩
    exact Option.eq_none_iff_forall_ne_some.mpr fun t ht =>
      htodo u hu (refunded_iff_find.mpr ⟨t, ht⟩)

/-- **A refund settles the facts of its operation**: it returns when nothing is left, and throws
otherwise. -/
theorem refundUsageOperation_settles (hk : WellKept s) (hop : checkRefund host input = .ok op) :
    Wp (refundUsageOperation host input) s
      (fun _ s' => s'.rowsOf input.workspaceId op =
          (settleRows input.credits (s.rowsOf input.workspaceId op)).1 ∧
        ((settleRows input.credits (s.rowsOf input.workspaceId op)).2 = none ∨
          (settleRows input.credits (s.rowsOf input.workspaceId op)).2 = some 0))
      fun _ _ => ¬ ((settleRows input.credits (s.rowsOf input.workspaceId op)).2 = none ∨
        (settleRows input.credits (s.rowsOf input.workspaceId op)).2 = some 0) := by
  simp only [refundUsageOperation, wp_bind, wp_check_ok hop, wp_get]
  refine (refundEach_settles hk (List.nil_append _).symm
    fun _ hu => absurd hu List.not_mem_nil).mono (fun loop s' hs' => ?_) fun _ _ hc => hc.elim
  obtain ⟨hrows, hleft⟩ := hs'
  rw [List.map_nil, List.nil_append, ← rowsOf] at hrows
  rw [← rowsOf] at hleft
  rw [← hleft]
  rcases loop with ⟨refunds, _ | left⟩
  · exact (wp_pure _).mpr ⟨hrows, .inl rfl⟩
  · simp only [wp_ite, wp_throw, wp_pure, Option.some_inj, reduceCtorEq, false_or]
    exact ⟨fun hne => hne, fun heq => ⟨hrows, not_not.mp heq⟩⟩

/-- The postcondition on the ledger is the postcondition on the facts. -/
theorem refundReached_iff (hk : WellKept s) (h : AnsweredOnce s)
    (hop : checkRefund host input = .ok op) :
    RefundReached host s input op ↔ RowsReached (s.rowsOf input.workspaceId op) input.credits := by
  have hspec := refundUsageOperation_settles hk hop
  have hafter (s' : MemoryCreditLedger) (hs' : s' = final (refundUsageOperation host input) s) :
      s'.refundedTotal input.workspaceId op = refundedOf (s'.rowsOf input.workspaceId op) := by
    have hnext : AnsweredOnce s' := hs' ▸ h.step hk (.refundUsageOperation input)
    exact hnext.refundedTotal_eq op
  rcases hrun : refundUsageOperation host input s with ⟨refunds, s'⟩ | ⟨e, s'⟩
  · obtain ⟨hrows, hleft⟩ := hspec.of_eq_ok hrun
    have hsum := hafter s' (by rw [final, hrun])
    rw [hrows] at hsum
    constructor
    · intro hr
      refine ⟨fun _ => ?_, fun hlt hle => ⟨hleft, ?_⟩⟩
      · rw [← hsum, ← usedTotal_eq]
        exact hr.returned refunds s' hrun
      · rw [← h.refundedTotal_eq, ← usedTotal_eq] at hlt
        rw [← usedTotal_eq] at hle ⊢
        obtain ⟨refunds', s'', hrun', heq⟩ := hr.raised hlt hle
        obtain ⟨rfl, rfl⟩ : refunds = refunds' ∧ s' = s'' := by simpa [hrun] using hrun'
        rw [← hsum]
        exact heq
    · intro hs
      refine ⟨fun refunds' s'' hrun' => ?_, fun hlt hle => ⟨refunds, s', hrun, ?_⟩⟩
      · obtain ⟨rfl, rfl⟩ : refunds = refunds' ∧ s' = s'' := by simpa [hrun] using hrun'
        rw [hsum, usedTotal_eq]
        exact hs.returned hleft
      · rw [h.refundedTotal_eq, usedTotal_eq] at hlt
        rw [usedTotal_eq] at hle ⊢
        rw [hsum]
        exact (hs.raised hlt hle).2
  · have hleft := hspec.of_eq_error hrun
    constructor
    · intro hr
      refine ⟨fun hret => absurd hret hleft, fun hlt hle => ?_⟩
      rw [← h.refundedTotal_eq, ← usedTotal_eq] at hlt
      rw [← usedTotal_eq] at hle
      obtain ⟨refunds', s'', hrun', -⟩ := hr.raised hlt hle
      rw [hrun] at hrun'
      exact absurd hrun' (by simp)
    · intro hs
      refine ⟨fun refunds' s'' hrun' => ?_, fun hlt hle => ?_⟩
      · rw [hrun] at hrun'
        exact absurd hrun' (by simp)
      · rw [h.refundedTotal_eq, usedTotal_eq] at hlt
        rw [usedTotal_eq] at hle
        exact absurd (hs.raised hlt hle).1 hleft

end Refunds

/-- **Cumulative refunds**: on every ledger the operations reach, no USAGE row is refunded beyond
its credits, and a refund that passes its checks reaches the amount it asks for exactly when the
amount is reachable from the rows of its operation. -/
theorem cumulativeRefunds (host : Host) (calls : List LedgerCall) :
    (∀ usage ∈ (runLedger host calls).transactions, usage.transactionType = .USAGE →
      (runLedger host calls).refundedAgainst usage.workspaceId usage.id ≤ usage.credits) ∧
    ∀ input operationId, checkRefund host input = .ok operationId →
      (RefundReached host (runLedger host calls) input operationId ↔
        AmountReachable ((runLedger host calls).rowsOf input.workspaceId operationId)
          input.credits) := by
  have hk := @wellKept_run host calls
  have h := answeredOnce_run host calls
  refine ⟨fun usage hu husage => h.refundedAgainst_le hu husage, fun input op hop => ?_⟩
  obtain ⟨done, todo, hrows, hfacts⟩ := rowsOf_facts hk h input.workspaceId op
  rw [refundReached_iff hk h hop, hrows]
  exact hfacts.settled_iff

/-- A first refund of 5 of the two rows of 5, then 8 in all. -/
theorem cumulativeRefunds_growing :
    RefundReached isoHost (runLedger isoHost (spentTwice ++
        [.refundUsageOperation (sampleRefund "r1" "task" (some 5))]))
      (sampleRefund "r2" "task" (some 8)) "consume:task" := by
  refine ((cumulativeRefunds isoHost _).2 _ _ (by decide +kernel)).mpr ⟨?_, ?_⟩ <;> decide +kernel

/-- **A row refunded in part is not topped up**: one row of 10, 4 refunded, and the whole operation
asked for next returns with 4 refunded still. -/
theorem not_cumulativeRefunds :
    ¬ ∀ calls input operationId, checkRefund isoHost input = .ok operationId →
      RefundReached isoHost (runLedger isoHost calls) input operationId := by
  intro h
  have hreach := (h [.grant (sampleGrant "a" 10), .consume (sampleConsume "task" 10),
      .refundUsageOperation (sampleRefund "r1" "task" (some 4))]
    (sampleRefund "r2" "task" none) "consume:task" (by decide +kernel)).raised
  obtain ⟨refunds, s', hrun, hsum⟩ := hreach (by decide +kernel) (by decide +kernel)
  have hfinal : (final (refundUsageOperation isoHost (sampleRefund "r2" "task" none))
      (runLedger isoHost [.grant (sampleGrant "a" 10), .consume (sampleConsume "task" 10),
        .refundUsageOperation (sampleRefund "r1" "task" (some 4))])).refundedTotal "shop"
        "consume:task" = 10 := by
    rw [final, hrun]
    exact hsum
  exact absurd hfinal (by decide +kernel)

end MeiyeAgent
