import MeiyeAgent.CreditBilling.LedgerWrites

/-!
# CreditBilling/LedgerSafety — balances stay within their lots, and the projection balances

The invariant is `Solvent`: on every lot, what remains and what is still **outstanding** — used and
not yet answered by a refund — fit the original amount together; and in every workspace the lots
hold exactly what the transactions leave.  A posting whose refunded amount is positive keeps it.

* `solvent_run` — every run whose calls fit (`RefundFits`, and totals that are safe integers) is
  solvent.
* `project_balances` — a solvent ledger projects to `available = granted + refunded - used -
  expired`, lots past their date counted as expired.
* A refund that asks for a *smaller* cumulative amount than has been refunded already does not fit:
  it steps below zero between two recorded refunds, and the next row is written with a negative
  amount.
-/

namespace MeiyeAgent

open Effect Table Text Relation MemoryCreditLedger

/-! ## What is outstanding on a lot -/

/-- The credits of `t` if it is a usage of the lot that no refund has answered. -/
def openUsage (s : MemoryCreditLedger) (ws lotId : String) (t : CreditLotTransaction) : Int :=
  if t.workspaceId = ws ∧ t.transactionType = .USAGE ∧ t.lotId = lotId ∧ ¬ s.Refunded ws t.id then
    t.credits
  else 0

/-- **The outstanding credits of a lot**: used, and not answered by a refund. -/
def outstanding (s : MemoryCreditLedger) (ws lotId : String) : Int :=
  tally (openUsage s ws lotId) s.transactions

/-- What a transaction adds to the balance of its workspace. -/
def movement (t : CreditLotTransaction) : Int :=
  match t.transactionType with
  | .grant _ => t.credits
  | .USAGE => -t.credits
  | .REFUND => if t.credited then t.credits else 0
  | .EXPIRE => -t.credits

/-- **The ledger is solvent.** -/
structure Solvent (host : Host) (s : MemoryCreditLedger) : Prop where
  dated : ∀ lot ∈ s.lots, ∀ date, lot.expirationDate = some date →
    ∃ ms, host.dateParse date = some ms
  nonneg : ∀ lot ∈ s.lots, 0 ≤ lot.remainingCredits
  room : ∀ lot ∈ s.lots,
    lot.remainingCredits + outstanding s lot.workspaceId lot.id ≤ lot.originalCredits
  positive : ∀ t ∈ s.transactions, 0 < t.credits
  balanced : ∀ ws, tally (·.remainingCredits) (s.listLots ws) = tally movement (s.listTransactions ws)

section Outstanding

variable {s : MemoryCreditLedger} {t : CreditLotTransaction} {ws id : String}

theorem openUsage_nonneg (hs : ∀ u ∈ s.transactions, 0 < u.credits) (ws id : String) :
    ∀ u ∈ s.transactions, 0 ≤ openUsage s ws id u := by
  intro u hu
  rw [openUsage]
  split
  · exact (hs u hu).le
  · exact le_refl _

theorem outstanding_nonneg (hs : ∀ u ∈ s.transactions, 0 < u.credits) (ws id : String) :
    0 ≤ outstanding s ws id := tally_nonneg (openUsage_nonneg hs ws id)

/-- A row that is no refund adds its own open credits, and no more. -/
theorem outstanding_push (hr : t.transactionType ≠ .REFUND) (ws id : String) :
    outstanding (s.push t) ws id = outstanding s ws id + openUsage (s.push t) ws id t := by
  have hsame : tally (openUsage (s.push t) ws id) s.transactions = outstanding s ws id := by
    refine tally_congr fun u _ => ?_
    have hpush : (s.push t).Refunded ws u.id ↔ s.Refunded ws u.id := by
      simp [refunded_push, CreditLotTransaction.isRefundOf, hr]
    simp only [openUsage, hpush]
  rw [outstanding, push_transactions, tally_append, hsame, tally_cons, tally_nil, add_zero]

/-- A refund lowers what is outstanding, and by all of the row it answers. -/
theorem outstanding_refund {row : CreditLotTransaction} (hs : ∀ u ∈ s.transactions, 0 < u.credits)
    (hrow : row ∈ s.transactions) (hws : row.workspaceId = ws) (hu : row.transactionType = .USAGE)
    (hopen : ¬ s.Refunded ws row.id) (htws : t.workspaceId = ws) (htr : t.transactionType = .REFUND)
    (htrel : t.relatedTransactionId = some row.id) :
    (∀ ws' id, outstanding (s.push t) ws' id ≤ outstanding s ws' id) ∧
      outstanding (s.push t) ws row.lotId + row.credits ≤ outstanding s ws row.lotId := by
  have hlast (ws' id : String) : openUsage (s.push t) ws' id t = 0 := by
    simp [openUsage, htr]
  have hle (ws' id : String) : ∀ u ∈ s.transactions, openUsage (s.push t) ws' id u ≤
      openUsage s ws' id u := by
    intro u hu
    rw [openUsage]
    split
    · next hnew =>
      have hold : ¬ s.Refunded ws' u.id := fun href => hnew.2.2.2 (refunded_push.mpr (.inl href))
      rw [openUsage, if_pos ⟨hnew.1, hnew.2.1, hnew.2.2.1, hold⟩]
    · exact openUsage_nonneg hs ws' id u hu
  refine ⟨fun ws' id => ?_, ?_⟩
  · rw [outstanding, push_transactions, tally_append, tally_cons, tally_nil, hlast, add_zero,
      add_zero]
    exact tally_le_tally (hle ws' id)
  · have hnow : openUsage (s.push t) ws row.lotId row + row.credits ≤
        openUsage s ws row.lotId row := by
      have href : (s.push t).Refunded ws row.id := refunded_push.mpr
        (.inr (CreditLotTransaction.isRefundOf_eq_true.mpr ⟨htws, htr, htrel⟩))
      simp [openUsage, href, hopen, hws, hu]
    rw [outstanding, push_transactions, tally_append, tally_cons, tally_nil, hlast, add_zero,
      add_zero]
    exact tally_drop_le hrow (hle ws row.lotId) hnow

end Outstanding

/-! ## Moving a balance -/

section Moves

variable {host : Host} {s : MemoryCreditLedger} {lot : CreditGrantLot} {ws id : String}

/-- The lots of a workspace after a move hold more or less by what the lot moved. -/
theorem tally_setRemaining (hlot : s.lots.find? (·.isLot ws id) = some lot) (r : Int) (ws' : String) :
    tally (·.remainingCredits) ((s.setRemaining ws id r).listLots ws') =
      tally (·.remainingCredits) (s.listLots ws') +
        if ws = ws' then r - lot.remainingCredits else 0 := by
  obtain ⟨hws, -⟩ := isLot_eq_true.mp (List.find?_some hlot)
  rw [listLots, listLots, tally_filter, tally_filter, setRemaining, tally_updateFirst _ hlot]
  simp only [hws, beq_iff_eq]
  split <;> omega

theorem listTransactions_push (t : CreditLotTransaction) (ws : String) :
    tally movement ((s.push t).listTransactions ws) = tally movement (s.listTransactions ws) +
      if t.workspaceId = ws then movement t else 0 := by
  rw [listTransactions, listTransactions, push_transactions, List.filter_append, tally_append,
    List.filter_singleton]
  by_cases h : t.workspaceId = ws
  · simp [h]
  · have hne : (t.workspaceId == ws) = false := by simpa using h
    simp [h, hne]

/-- **A move and the row that records it**: the balance moves by the row's movement, and the room
of the lot is kept. -/
theorem Solvent.move (h : Solvent host s) (hk : WellKept s) {r : Int} {t : CreditLotTransaction}
    (hlot : s.lots.find? (·.isLot ws id) = some lot) (hr : 0 ≤ r) (ht : 0 < t.credits)
    (htws : t.workspaceId = ws) (hmove : movement t = r - lot.remainingCredits)
    (hroom : r + outstanding (s.push t) ws id ≤ lot.originalCredits)
    (hothers : ∀ ws' id', ¬ (ws' = ws ∧ id' = id) →
      outstanding (s.push t) ws' id' ≤ outstanding s ws' id') :
    Solvent host ((s.setRemaining ws id r).push t) where
  dated l hl := by
    rcases mem_setRemaining hk hlot hl with ⟨hl, -⟩ | rfl
    · exact h.dated l hl
    · exact h.dated lot (List.mem_of_find?_eq_some hlot)
  nonneg l hl := by
    rcases mem_setRemaining hk hlot hl with ⟨hl, -⟩ | rfl
    · exact h.nonneg l hl
    · exact hr
  room l hl := by
    rcases mem_setRemaining hk hlot hl with ⟨hl, hne⟩ | rfl
    · have hle : outstanding (s.push t) l.workspaceId l.id ≤ outstanding s l.workspaceId l.id :=
        hothers _ _ hne
      exact (add_le_add_right hle _).trans (h.room l hl)
    · obtain ⟨hws, hid⟩ := isLot_eq_true.mp (List.find?_some hlot)
      rw [← hws, ← hid] at hroom
      exact hroom
  positive u hu := by
    rcases List.mem_append.mp hu with hu | hu
    · exact h.positive u hu
    · exact List.mem_singleton.mp hu ▸ ht
  balanced ws' := by
    have hlots := tally_setRemaining hlot r ws'
    have hrows : tally movement (((s.setRemaining ws id r).push t).listTransactions ws') = _ :=
      listTransactions_push t ws'
    have hbefore := h.balanced ws'
    rw [htws, hmove] at hrows
    exact hlots.trans ((congrArg (· + _) hbefore).trans hrows.symm)

/-- A row that moves nothing: a refund too late to be credited. -/
theorem Solvent.push_still (h : Solvent host s) {t : CreditLotTransaction} (ht : 0 < t.credits)
    (hmove : movement t = 0) (hle : ∀ ws' id', outstanding (s.push t) ws' id' ≤
      outstanding s ws' id') : Solvent host (s.push t) where
  dated := h.dated
  nonneg := h.nonneg
  room l hl := (add_le_add_right (hle _ _) _).trans (h.room l hl)
  positive u hu := by
    rcases List.mem_append.mp hu with hu | hu
    · exact h.positive u hu
    · exact List.mem_singleton.mp hu ▸ ht
  balanced ws' := by
    rw [listTransactions_push, hmove, ite_self, add_zero]
    exact h.balanced ws'

/-- A lot just opened: nothing has been charged to its key. -/
theorem outstanding_new (h : WellKept s) (hnew : (ws, id) ∉ s.lots.map (·.key)) :
    outstanding s ws id = 0 := by
  have hzero : tally (openUsage s ws id) s.transactions = tally (fun _ => 0) s.transactions := by
    refine tally_congr fun t ht => ?_
    rw [openUsage, if_neg]
    rintro ⟨hws, -, hid, -⟩
    exact hnew (hws ▸ hid ▸ h.rowLots t ht)
  rw [outstanding, hzero]
  simp [tally]

theorem Solvent.openLot (h : Solvent host s) (hk : WellKept s) {input : GrantCreditsInput}
    {key : String} (hinput : assertGrantInput host input = .ok ())
    (hnew : ∀ lot ∈ s.lots, lot.workspaceId = input.workspaceId →
      lot.id ≠ input.id ∧ lot.grantIdempotencyKey ≠ key) :
    Solvent host (.mk (s.lots ++ [grantedLot input key])
      (s.transactions ++ [grantTransaction input (grantedLot input key) key])) := by
  obtain ⟨hpos, -, hdates⟩ := assertGrantInput_ok hinput
  have hout (ws' id' : String) : outstanding (.mk (s.lots ++ [grantedLot input key])
      (s.transactions ++ [grantTransaction input (grantedLot input key) key])) ws' id' =
        outstanding s ws' id' := by
    refine (outstanding_push (by simp [grantTransaction]) ws' id').trans ?_
    rw [openUsage, if_neg (by simp [grantTransaction]), add_zero]
  have hfresh : (input.workspaceId, input.id) ∉ s.lots.map (·.key) := by
    intro hmem
    obtain ⟨l, hl, hkey⟩ := List.mem_map.mp hmem
    exact (hnew l hl (congrArg Prod.fst hkey)).1 (congrArg Prod.snd hkey)
  refine ⟨?_, ?_, ?_, ?_, ?_⟩
  · intro l hl
    rcases List.mem_append.mp hl with hl | hl
    · exact h.dated l hl
    · exact List.mem_singleton.mp hl ▸ hdates
  · intro l hl
    rcases List.mem_append.mp hl with hl | hl
    · exact h.nonneg l hl
    · exact List.mem_singleton.mp hl ▸ hpos.le
  · intro l hl
    rw [hout]
    rcases List.mem_append.mp hl with hl | hl
    · exact h.room l hl
    · rw [List.mem_singleton.mp hl]
      exact (add_le_add_right (outstanding_new hk hfresh).le _).trans (add_zero _).le
  · intro u hu
    rcases List.mem_append.mp hu with hu | hu
    · exact h.positive u hu
    · exact List.mem_singleton.mp hu ▸ hpos
  · intro ws'
    refine Eq.trans ?_ (listTransactions_push _ ws').symm
    rw [listLots, List.filter_append, tally_append, List.filter_singleton, ← h.balanced ws',
      listLots]
    by_cases hws : input.workspaceId = ws'
    · simp [grantedLot, grantTransaction, movement, hws]
    · have hne : (input.workspaceId == ws') = false := by simpa using hws
      simp [grantedLot, grantTransaction, hws, hne]

/-- **Every posting of a positive refund keeps the ledger solvent.** -/
theorem Solvent.posting {s' : MemoryCreditLedger} (hp : Posting host (0 < ·) s s')
    (hk : WellKept s) (h : Solvent host s) : Solvent host s' := by
  cases hp with
  | grant input key hinput hnew => exact h.openLot hk hinput hnew
  | usage input op index lot amount hlot hpos hroom _ =>
    obtain ⟨hws, -⟩ := isLot_eq_true.mp (List.find?_some hlot)
    have hlots := h.room lot (List.mem_of_find?_eq_some hlot)
    have hout (ws id : String) := outstanding_push (s := s)
      (t := usageTransaction input op index lot.id amount) (by simp [usageTransaction]) ws id
    refine h.move hk hlot (by omega) hpos rfl ?_ ?_ ?_
    · simp only [movement, usageTransaction]
      omega
    · rw [hout]
      have : openUsage (s.push (usageTransaction input op index lot.id amount)) input.workspaceId
          lot.id (usageTransaction input op index lot.id amount) ≤ amount := by
        rw [openUsage]
        split
        · exact le_refl _
        · exact hpos.le
      rw [hws] at hlots
      omega
    · intro ws' id' hne
      rw [hout, openUsage, if_neg, add_zero]
      rintro ⟨hws', -, hid', -⟩
      exact hne ⟨hws'.symm, hid'.symm⟩
  | refund input op index pre post row lot amount hrows hpre hopen hlot _ hle hok =>
    obtain ⟨hrow, hrws, hru, -⟩ := mem_usagesOf.mp
      (hrows ▸ by simp : row ∈ s.usagesOf input.workspaceId op)
    obtain ⟨hws, hid⟩ := isLot_eq_true.mp (List.find?_some hlot)
    have hlots := h.room lot (List.mem_of_find?_eq_some hlot)
    have hnn := h.nonneg lot (List.mem_of_find?_eq_some hlot)
    obtain ⟨t, ht⟩ : ∃ t, t = refundTransaction input index row lot.id amount true := ⟨_, rfl⟩
    rw [← ht]
    have htrel : t.workspaceId = input.workspaceId ∧ t.transactionType = .REFUND ∧
        t.relatedTransactionId = some row.id ∧ t.credits = amount := ht ▸ ⟨rfl, rfl, rfl, rfl⟩
    have hmove : movement t = amount := by rw [ht, movement, refundTransaction]; rfl
    obtain ⟨hdown, hdrop⟩ := outstanding_refund h.positive hrow hrws hru hopen htrel.1 htrel.2.1
      htrel.2.2.1
    have hpushed : ∀ u ∈ (s.push t).transactions, 0 < u.credits := by
      intro u hu
      rcases List.mem_append.mp hu with hu | hu
      · exact h.positive u hu
      · rw [List.mem_singleton.mp hu, htrel.2.2.2]
        exact hok
    have hnow := outstanding_nonneg hpushed input.workspaceId row.lotId
    rw [hws, hid] at hlots
    -- the row was outstanding, so the lot has room for all of the refund
    have hmin : min lot.originalCredits (lot.remainingCredits + amount) =
        lot.remainingCredits + amount := min_eq_right (by omega)
    rw [hmin]
    refine h.move hk hlot (by omega) (htrel.2.2.2 ▸ hok) htrel.1 ?_ ?_ fun ws' id' _ => hdown ws' id'
    · rw [hmove]
      omega
    · omega
  | refundUncredited input op index pre post row lot amount hrows hpre hopen hlot hle hok =>
    obtain ⟨hrow, hrws, hru, -⟩ := mem_usagesOf.mp
      (hrows ▸ by simp : row ∈ s.usagesOf input.workspaceId op)
    exact h.push_still hok rfl
      (outstanding_refund h.positive hrow hrws hru hopen rfl rfl rfl).1
  | expire family actorId correlationId createdAt lot hlot hpos =>
    have hlots := h.room lot (List.mem_of_find?_eq_some hlot)
    have hout (ws id : String) : outstanding (s.push
        (expireTransaction family lot actorId correlationId createdAt)) ws id =
          outstanding s ws id := by
      rw [outstanding_push (by simp [expireTransaction]), openUsage,
        if_neg (by simp [expireTransaction]), add_zero]
    refine h.move hk hlot (le_refl _) hpos rfl ?_ ?_ ?_
    · simp only [movement, expireTransaction]
      omega
    · rw [hout]
      omega
    · exact fun ws' id' _ => (hout ws' id').le

end Moves

/-! ## Refunds that fit -/

/-- **A cumulative amount fits the rows** of its operation (credits used, credits refunded): it is
no less than what has been refunded already, or the sum of the first refunds recorded, or there is
no row left to refund. -/
def AmountFits (rows : List (Int × Option Int)) (credits : Int) : Prop :=
  let refunded := rows.filterMap Prod.snd
  refunded.sum ≤ credits ∨ (∃ n ≤ refunded.length, (refunded.take n).sum = credits) ∨
    ∀ row ∈ rows, row.2.isSome = true

instance (rows : List (Int × Option Int)) (credits : Int) : Decidable (AmountFits rows credits) :=
  inferInstanceAs (Decidable (_ ∨ (∃ n ≤ _, _) ∨ ∀ row ∈ rows, row.2.isSome = true))

/-- **The refund fits.**  A call that fails its checks, or names no amount, asks for nothing that
could not fit. -/
def RefundFits (host : Host) (s : MemoryCreditLedger) (input : RefundUsageInput) : Prop :=
  match checkRefund host input, input.credits with
  | .ok op, some credits =>
    AmountFits ((s.usagesOf input.workspaceId op).map (s.rowFacts input.workspaceId)) credits
  | _, _ => True

instance (host : Host) (s : MemoryCreditLedger) (input : RefundUsageInput) :
    Decidable (RefundFits host s input) := by
  unfold RefundFits
  split <;> infer_instance

/-- The credits a workspace was granted and has used so far, by its transactions. -/
def turnover (s : MemoryCreditLedger) (workspaceId : String) : Int :=
  tally (·.credits) ((s.listTransactions workspaceId).filter fun t =>
    t.transactionType.isGrant || t.transactionType == .USAGE)

/-- **The condition on a call.**  A refund fits.  A grant and a consumption keep the turnover of
their workspace a safe integer: refunds stay within what was used, and expiries within what was
granted and refunded, so every total of the projection is one too, and added up exactly. -/
def LedgerCall.Fits (host : Host) (s : MemoryCreditLedger) : LedgerCall → Prop
  | .refundUsageOperation input => RefundFits host s input
  | .grant input => turnover s input.workspaceId + input.credits ≤ maxSafeInteger
  | .consume input => turnover s input.workspaceId + input.credits ≤ maxSafeInteger
  | _ => True

instance (host : Host) (s : MemoryCreditLedger) :
    (call : LedgerCall) → Decidable (call.Fits host s)
  | .refundUsageOperation input => inferInstanceAs (Decidable (RefundFits host s input))
  | .grant _ => inferInstanceAs (Decidable (_ ≤ _))
  | .consume _ => inferInstanceAs (Decidable (_ ≤ _))
  | .expireLots _ => .isTrue trivial
  | .expireSubscriptionLots _ => .isTrue trivial

/-- Without an amount every row is refunded whole. -/
theorem repriced_whole : ∀ {rows : List (Int × Option Int)}, (∀ row ∈ rows, 0 < row.1) →
    ∀ a ∈ repriced none rows, 0 < a
  | [], _, _, ha => absurd ha List.not_mem_nil
  | (_, some _) :: _, hrows, a, ha =>
    repriced_whole (fun row hrow => hrows row (List.mem_cons_of_mem _ hrow)) a ha
  | (_, none) :: _, hrows, a, ha => by
    rcases List.mem_cons.mp ha with rfl | ha
    · exact hrows _ List.mem_cons_self
    · exact repriced_whole (fun row hrow => hrows row (List.mem_cons_of_mem _ hrow)) a ha

/-- Rows no refund has answered are refunded in positive amounts. -/
theorem repriced_open : ∀ {rows : List (Int × Option Int)} {credits : Int}, 0 ≤ credits →
    (∀ row ∈ rows, 0 < row.1 ∧ row.2 = none) → ∀ a ∈ repriced (some credits) rows, 0 < a
  | [], _, _, _, _, ha => absurd ha List.not_mem_nil
  | (used, refunded) :: rows, credits, hc, hrows, a, ha => by
    obtain ⟨hpos, rfl⟩ : 0 < used ∧ refunded = none := hrows _ List.mem_cons_self
    rw [repriced] at ha
    by_cases hstop : credits = 0
    · rw [if_pos (congrArg some hstop)] at ha
      exact absurd ha List.not_mem_nil
    rw [if_neg (by simpa using hstop)] at ha
    rcases List.mem_cons.mp ha with rfl | ha
    · exact lt_min hpos (by omega)
    · have hleft : 0 ≤ credits - min used credits := by omega
      exact repriced_open hleft (fun row hrow => hrows row (List.mem_cons_of_mem _ hrow)) a ha

/-- **Answered rows first**: when the first unanswered row is reached, what is left is the amount
asked for less all that is refunded, unless the loop has stopped at a partial sum. -/
theorem repriced_fits {todo : List (Int × Option Int)}
    (htodo : ∀ row ∈ todo, 0 < row.1 ∧ row.2 = none) :
    ∀ {done : List (Int × Option Int)} {credits : Int}, (∀ row ∈ done, row.2.isSome = true) →
      AmountFits (done ++ todo) credits → ∀ a ∈ repriced (some credits) (done ++ todo), 0 < a
  | [], credits, _, h, a, ha => by
    have hnone : todo.filterMap Prod.snd = [] :=
      List.filterMap_eq_nil_iff.mpr fun row hrow => (htodo row hrow).2
    simp only [AmountFits, List.nil_append, hnone, List.sum_nil, List.take_nil, exists_and_right] at h
    rcases h with h | ⟨-, h⟩ | h
    · exact repriced_open h htodo a ha
    · exact repriced_open h.le htodo a ha
    · rcases todo with _ | ⟨row, rows⟩
      · exact absurd ha List.not_mem_nil
      · have hsome := h row List.mem_cons_self
        rw [(htodo row List.mem_cons_self).2] at hsome
        exact absurd hsome (by simp)
  | (_, none) :: _, _, hdone, _, _, _ => absurd (hdone _ List.mem_cons_self) (by simp)
  | (used, some e) :: done, credits, hdone, h, a, ha => by
    rw [List.cons_append, repriced] at ha
    by_cases hstop : credits = 0
    · rw [if_pos (congrArg some hstop)] at ha
      exact absurd ha List.not_mem_nil
    rw [if_neg (by simpa using hstop)] at ha
    refine repriced_fits htodo (fun row hrow => hdone row (List.mem_cons_of_mem _ hrow)) ?_ a ha
    rcases h with h | ⟨n, hn, h⟩ | h
    · refine .inl (show _ ≤ credits - e from ?_)
      simp only [List.cons_append, List.filterMap_cons, List.sum_cons] at h
      omega
    · refine .inr (.inl (show ∃ n ≤ _, _ = credits - e from ?_))
      rcases n with _ | n
      · exact absurd h.symm hstop
      · refine ⟨n, by simpa using hn, ?_⟩
        simp only [List.cons_append, List.filterMap_cons, List.take_succ_cons, List.sum_cons] at h
        omega
    · exact .inr (.inr fun row hrow => h row (List.mem_cons_of_mem _ hrow))

/-- **A refund that fits writes positive amounts.** -/
theorem refundAmounts_pos {host : Host} {s : MemoryCreditLedger} (hk : WellKept s)
    (h : Solvent host s) (input : RefundUsageInput) (hfits : RefundFits host s input) :
    ∀ a ∈ (LedgerCall.refundUsageOperation input).refundAmounts host s, 0 < a := by
  intro a ha
  rw [LedgerCall.refundAmounts] at ha
  rw [RefundFits] at hfits
  rcases hcheck : checkRefund host input with _ | op
  · rw [hcheck] at ha
    exact absurd ha List.not_mem_nil
  rw [hcheck] at ha hfits
  have hpos : ∀ row ∈ s.usagesOf input.workspaceId op, 0 < row.credits := fun row hrow =>
    h.positive row (mem_usagesOf.mp hrow).1
  rcases hcredits : input.credits with _ | credits
  · rw [hcredits] at ha
    refine repriced_whole (fun row hrow => ?_) a ha
    obtain ⟨u, hu, rfl⟩ := List.mem_map.mp hrow
    exact hpos u hu
  · rw [hcredits] at ha hfits
    obtain ⟨done, todo, hrows, hdone, htodo⟩ :=
      exists_prefix_split (hk.refundPrefix input.workspaceId op)
    rw [hrows] at hpos
    simp only [hrows, List.map_append] at ha hfits
    refine repriced_fits (fun row hrow => ?_) (fun row hrow => ?_) hfits a ha
    · obtain ⟨u, hu, rfl⟩ := List.mem_map.mp hrow
      refine ⟨hpos u (List.mem_append_right _ hu), Option.map_eq_none_iff.mpr ?_⟩
      exact Option.eq_none_iff_forall_ne_some.mpr fun t ht =>
        htodo u hu (refunded_iff_find.mpr ⟨t, ht⟩)
    · obtain ⟨u, hu, rfl⟩ := List.mem_map.mp hrow
      obtain ⟨t, ht⟩ := refunded_iff_find.mp (hdone u hu)
      rw [rowFacts, ht]
      rfl

theorem Solvent.empty (host : Host) : Solvent host .empty where
  dated _ hl := absurd hl List.not_mem_nil
  nonneg _ hl := absurd hl List.not_mem_nil
  room _ hl := absurd hl List.not_mem_nil
  positive _ ht := absurd ht List.not_mem_nil
  balanced _ := rfl

/-- **A call that fits keeps a well kept ledger solvent.** -/
theorem Solvent.step {host : Host} {s : MemoryCreditLedger} (hk : WellKept s)
    (h : Solvent host s) {call : LedgerCall} (hfits : call.Fits host s) :
    Solvent host (call.step host s) := by
  have hamounts : ∀ a ∈ call.refundAmounts host s, 0 < a := by
    rcases call with _ | _ | input | _ | _
    case refundUsageOperation => exact refundAmounts_pos hk h input hfits
    all_goals exact fun _ ha => absurd ha List.not_mem_nil
  have hchain : ReflTransGen (Posting host (0 < ·)) s (call.step host s) :=
    chain_call hk call hamounts
  have hboth := chain_invariant (fun s => WellKept s ∧ Solvent host s)
    (fun _ _ hp hI => ⟨hI.1.posting hp, hI.2.posting hp hI.1⟩) hchain ⟨hk, h⟩
  exact hboth.2

/-- **Every run whose calls fit is solvent.** -/
theorem solvent_run {host : Host} {calls : List LedgerCall}
    (h : Admits (LedgerCall.step host) (fun s call => call.Fits host s) calls .empty) :
    Solvent host (runLedger host calls) := by
  refine (runAll_induct (fun s => WellKept s ∧ Solvent host s) (fun s call hI hfits => ?_) calls
    ⟨WellKept.empty, Solvent.empty host⟩ h).2
  exact ⟨hI.1.step call, hI.2.step hI.1 hfits⟩

/-! ## The projection -/

/-- **The ledger is safe**: balances within their lots, positive transactions, and a projection
that balances at every moment the host can read. -/
structure LedgerSafe (host : Host) (s : MemoryCreditLedger) : Prop where
  bounded : ∀ lot ∈ s.lots, 0 ≤ lot.remainingCredits ∧ lot.remainingCredits ≤ lot.originalCredits
  positive : ∀ t ∈ s.transactions, 0 < t.credits
  conserved : ∀ workspaceId asOf, (∃ ms, host.dateParse asOf = some ms) →
    (s.project host workspaceId asOf).availableCredits =
      (s.project host workspaceId asOf).grantedCredits +
        (s.project host workspaceId asOf).refundedCredits -
        (s.project host workspaceId asOf).usedCredits -
        (s.project host workspaceId asOf).expiredCredits

/-- What the transactions leave is read off the four totals of the projection. -/
theorem tally_movement (ts : List CreditLotTransaction) :
    tally movement ts = totalOf ts (·.isGrant) +
      tally (·.credits) (ts.filter fun t => t.transactionType == .REFUND && t.credited) -
      totalOf ts (· == .USAGE) - totalOf ts (· == .EXPIRE) := by
  simp only [totalOf, tally_filter]
  rw [← tally_add, ← tally_sub, ← tally_sub]
  refine tally_congr fun t _ => ?_
  rcases ht : t.transactionType with _ | _ | _ | _ <;>
    simp [movement, ht, CreditTransactionType.isGrant]

/-- **A lot counts once**: as available before its date, as expired from its date on. -/
theorem tally_open_add_due {host : Host} {lots : List CreditGrantLot} {asOf : String} {now : Int}
    (hnow : host.dateParse asOf = some now) (hnn : ∀ lot ∈ lots, 0 ≤ lot.remainingCredits)
    (hdated : ∀ lot ∈ lots, ∀ date, lot.expirationDate = some date →
      ∃ ms, host.dateParse date = some ms) :
    tally (·.remainingCredits) (lots.filter (·.openAt host asOf)) +
      tally (·.remainingCredits)
        (lots.filter fun lot => 0 < lot.remainingCredits && lot.dueAt host asOf) =
      tally (·.remainingCredits) lots := by
  rw [tally_filter, tally_filter, ← tally_add]
  refine tally_congr fun lot hlot => ?_
  have hle := hnn lot hlot
  rcases hdate : lot.expirationDate with _ | date
  · simp [CreditGrantLot.openAt, CreditGrantLot.dueAt, hdate]
  · obtain ⟨ms, hms⟩ := hdated lot hlot date hdate
    simp only [CreditGrantLot.openAt, CreditGrantLot.dueAt, hdate, hms, hnow, Num.gt_some,
      Num.le_some, Bool.and_eq_true, decide_eq_true_eq]
    split <;> split <;> omega

theorem project_balances {host : Host} {s : MemoryCreditLedger} (h : Solvent host s)
    {workspaceId asOf : String} {now : Int} (hnow : host.dateParse asOf = some now) :
    (s.project host workspaceId asOf).availableCredits =
      (s.project host workspaceId asOf).grantedCredits +
        (s.project host workspaceId asOf).refundedCredits -
        (s.project host workspaceId asOf).usedCredits -
        (s.project host workspaceId asOf).expiredCredits := by
  have hlots := tally_open_add_due hnow
    (fun lot hlot => h.nonneg lot (List.mem_of_mem_filter (hlot : lot ∈ s.listLots workspaceId)))
    (fun lot hlot => h.dated lot (List.mem_of_mem_filter hlot))
  have hrows := tally_movement (s.listTransactions workspaceId)
  have hbalanced := h.balanced workspaceId
  simp only [project, projectCreditBalance]
  omega

theorem Solvent.ledgerSafe {host : Host} {s : MemoryCreditLedger} (h : Solvent host s) :
    LedgerSafe host s where
  bounded lot hlot := by
    have hout := outstanding_nonneg h.positive lot.workspaceId lot.id
    have hroom := h.room lot hlot
    exact ⟨h.nonneg lot hlot, by omega⟩
  positive := h.positive
  conserved _ _ := fun ⟨_, hnow⟩ => project_balances h hnow

/-- **Safety and conservation of the credit ledger**: every run whose calls fit ends safe. -/
theorem ledgerSafe_run (host : Host) (calls : List LedgerCall)
    (h : Admits (LedgerCall.step host) (fun s call => call.Fits host s) calls .empty) :
    LedgerSafe host (runLedger host calls) := (solvent_run h).ledgerSafe

/-! ## A refund that does not fit -/

/-- A grant of `credits` to workspace `shop`, spendable through 2026. -/
def sampleGrant (id : String) (credits : Int) : GrantCreditsInput where
  id := id
  workspaceId := "shop"
  credits := credits
  expirationDate := some "2027-01-01T00:00:00.000Z"
  transactionType := .PURCHASE_PACKAGE
  createdAt := "2026-01-01T00:00:00.000Z"

def sampleConsume (transactionId : String) (credits : Int) : ConsumeCreditsInput where
  workspaceId := "shop"
  credits := credits
  transactionId := transactionId
  actorId := "owner"
  correlationId := "image"
  createdAt := "2026-02-01T00:00:00.000Z"

def sampleRefund (refundOperationId usageOperationId : String) (credits : Option Int) :
    RefundUsageInput where
  workspaceId := "shop"
  usageOperationId := usageOperationId
  refundOperationId := refundOperationId
  credits := credits
  actorId := "owner"
  correlationId := "image"
  createdAt := "2026-02-02T00:00:00.000Z"

/-- Two lots of 5 spent by one operation of 10. -/
def spentTwice : List LedgerCall :=
  [.grant (sampleGrant "a" 5), .grant (sampleGrant "b" 5), .consume (sampleConsume "task" 10)]

/-- The operation refunded by 5, then by 8, then whole. -/
theorem ledgerSafe_run_growing :
    LedgerSafe isoHost (runLedger isoHost (spentTwice ++ [
      .refundUsageOperation (sampleRefund "r1" "task" (some 5)),
      .refundUsageOperation (sampleRefund "r2" "task" (some 8)),
      .refundUsageOperation (sampleRefund "r3" "task" none)])) :=
  ledgerSafe_run isoHost _ (by decide +kernel)

/-- **A cumulative refund of 4 after one of 5** writes a REFUND row of -1 credits. -/
theorem not_ledgerSafe_shrinking_refund :
    ¬ ∀ calls, LedgerSafe isoHost (runLedger isoHost calls) := by
  intro h
  have hpos := (h (spentTwice ++ [
    .refundUsageOperation (sampleRefund "r1" "task" (some 5)),
    .refundUsageOperation (sampleRefund "r2" "task" (some 4))])).positive
  exact absurd hpos (by decide +kernel)

end MeiyeAgent
